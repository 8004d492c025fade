import Reshape.Plan.Routine
import Reshape.Proofs.Mapping.Correspondence
import Reshape.Proofs.Outcome
import Reshape.Proofs.Pool.Below

/-!
# Members that programs read and write

Which members the program between two records reads and writes, wherever they stand in it
(`Expr.accesses`). What is written may be written, and what is read of the source may be read
(`Mapping.accesses_of_plan`).

The destination is read as well. A routine that converts a member is given what the paired
member holds, to convert into (`Mapping.Reuses`), and the rules ask of that member that it may be
written, not that it may be read. The program reads a member that is not readable iff it converts
into a member that is write-only in this way.
-/

namespace Reshape

/-! ## Accesses -/

mutual

/-- The reads and writes of members within an expression. -/
def Expr.accesses : Expr → List Expr
  | .argument _ | .readLocal _ | .declareLocal _ _ | .newInstance _ | .null => []
  | .writeLocal _ value | .box value | .unbox value | .returns value | .convert _ value =>
    value.accesses
  | .sequence children => Expr.accessesAll children
  | .invoke _ _ value destination => value.accesses ++ destination.accesses
  | .readMember object shape member => .readMember object shape member :: object.accesses
  | .writeMember id member value => .writeMember id member value :: value.accesses
  | .coalesce value fallback => value.accesses ++ fallback.accesses
  | .ifNotNull test body => test.accesses ++ body.accesses

/-- The reads and writes of members within a list of expressions. -/
def Expr.accessesAll : List Expr → List Expr
  | [] => []
  | e :: es => e.accesses ++ Expr.accessesAll es

end

theorem Expr.mem_accessesAll {x : Expr} {es : List Expr} :
    x ∈ Expr.accessesAll es ↔ ∃ e ∈ es, x ∈ e.accesses := by
  induction es with
  | nil => simp [accessesAll]
  | cons e es ih => simp [accessesAll, ih]

theorem Expr.accessesAll_append (es es' : List Expr) :
    Expr.accessesAll (es ++ es') = Expr.accessesAll es ++ Expr.accessesAll es' := by
  induction es with
  | nil => rfl
  | cons e es ih => simp [accessesAll, ih]

/-! ## Permissions -/

/-- The shape has this member, and it may be read. -/
def Pool.Readable (pool : Pool) (shape : ShapeId) (member : Nat) : Prop :=
  ∃ known m, pool.descriptor shape = .ok known ∧ known.members[member]? = some m ∧
    m.access.readable = true

/-- The shape has this member, and it may be written. -/
def Pool.Writable (pool : Pool) (shape : ShapeId) (member : Nat) : Prop :=
  ∃ known m, pool.descriptor shape = .ok known ∧ known.members[member]? = some m ∧
    m.access.writable = true

/-! ## Members -/

namespace Mapping

variable {pool : Pool} {mapping : Mapping} {source target : ShapeId}

/-- A member of shape `source` is converted into one of shape `target` by a routine that is
given what the target member holds. -/
def Reuses (mapping : Mapping) (pool : Pool) (source target : ShapeId) : Prop :=
  mapping.converterFor source target = none ∧
    ∃ below below' known, pool.stripNullable source = .ok below ∧
      pool.Below target below' known ∧ mapping.converterFor below below' = none ∧
      (∀ p, known.kind ≠ .primitive p) ∧ known.kind ≠ .any ∧
      ¬(mapping.copyMode = .shallow ∧ (below = below' ∨ below' = ShapeId.any))

/-- The destination's value is handed on where the two shapes are converted by a routine, and not
shared, converted as primitives or passed into `any`. -/
theorem reuses_iff {below below' : ShapeId} {known : Descriptor}
    (hnone : mapping.converterFor source target = none)
    (hsource : pool.stripNullable source = .ok below) (htarget : pool.Below target below' known) :
    mapping.Reuses pool source target ↔ mapping.converterFor below below' = none ∧
      (∀ p, known.kind ≠ .primitive p) ∧ known.kind ≠ .any ∧
      ¬(mapping.copyMode = .shallow ∧ (below = below' ∨ below' = ShapeId.any)) := by
  constructor
  · rintro ⟨-, a, b, known', ha, hb, hrest⟩
    obtain rfl := Except.ok.inj (hsource.symm.trans ha)
    obtain ⟨rfl, rfl⟩ := htarget.unique hb
    exact hrest
  · intro hrest
    exact ⟨hnone, below, below', known, hsource, htarget, hrest⟩

/-- Besides the member that is read, the value written to a member accesses the current one, if
that is reused. -/
theorem mem_accesses_memberValue {read current e x : Expr}
    (h : memberValue pool mapping read source target current = .ok e) :
    x ∈ e.accesses ↔
      x ∈ read.accesses ∨ mapping.Reuses pool source target ∧ x ∈ current.accesses := by
  unfold memberValue at h
  split at h
  · rename_i id hfound
    cases h
    have hno : ¬mapping.Reuses pool source target := fun hreuses => by simp [hreuses.1] at hfound
    simp [Expr.accesses, hno]
  · rename_i hnone
    obtain ⟨below, hsource, h⟩ := Except.bind_eq_ok_iff.mp h
    obtain ⟨below', htarget, h⟩ := Except.bind_eq_ok_iff.mp h
    rw [Pool.orCompileError_eq_ok_iff] at hsource htarget
    split at h
    · rename_i id hfound
      cases h
      have hno : ¬mapping.Reuses pool source target := by
        rintro ⟨-, a, b, known, ha, hb, hreuses, -⟩
        cases hsource.symm.trans ha
        cases htarget.symm.trans hb.strip
        simp [hreuses] at hfound
      simp [Expr.accesses, hno]
    · rename_i hnone'
      obtain ⟨sourceShape, -, h⟩ := Except.bind_eq_ok_iff.mp h
      obtain ⟨targetShape, hdescriptor, h⟩ := Except.bind_eq_ok_iff.mp h
      rw [Pool.orCompileError_eq_ok_iff] at hdescriptor
      rw [reuses_iff hnone hsource ⟨htarget, hdescriptor⟩]
      split at h
      · rename_i a b ha hb
        split at h
        · cases h
          simp [hb]
        · split at h <;> cases h
          simp [hb, Expr.accesses]
      · rename_i b ha hb
        cases h
        simp [hb, Expr.accesses]
      · cases h
      · rename_i hprimitive _ _
        split at h
        · rename_i hshared
          cases h
          simp [hshared]
        · rename_i hshared
          split at h
          · rename_i hany
            cases h
            simp [hany, Expr.accesses]
          · rename_i hany
            cases h
            rw [iff_true_intro (a := _ ∧ _) ⟨hnone', hprimitive, hany, hshared⟩, true_and]
            cases targetShape.valueType <;> simp [Expr.accesses]

/-- The rules pair the two members. -/
structure Pairs (mapping : Mapping) (sourceShape targetShape : Descriptor) (pair : MemberPair)
    (sourceMember targetMember : Member) : Prop where
  mem : pair ∈ mapping.rules.pairs sourceShape targetShape
  source : sourceShape.members[pair.source]? = some sourceMember
  destination : targetShape.members[pair.destination]? = some targetMember

/-! ## Programs between records -/

/-- The read of a member of the source record. -/
def readSource (source : ShapeId) (member : Nat) : Expr :=
  .readMember (.readLocal sourceLocal) source member

/-- The read of a member of the destination record. -/
def readTarget (target : ShapeId) (member : Nat) : Expr :=
  .readMember (.readLocal targetLocal) target member

/-- What the write of a pair accesses besides the member that it writes. -/
def PairReads (mapping : Mapping) (pool : Pool) (source target : ShapeId) (pair : MemberPair)
    (sourceMember targetMember : Member) (x : Expr) : Prop :=
  x = readSource source pair.source ∨
    mapping.Reuses pool sourceMember.shape targetMember.shape ∧
      x = readTarget target pair.destination

variable {sourceShape targetShape : Descriptor} {program : Program}

/-- The pairs of members that exist are written. -/
theorem memberWrite_eq_some_iff {pair : MemberPair} {write : Expr} :
    memberWrite pool mapping source sourceShape target targetShape pair = .ok (some write) ↔
      ∃ sourceMember targetMember value, sourceShape.members[pair.source]? = some sourceMember ∧
        targetShape.members[pair.destination]? = some targetMember ∧
        memberValue pool mapping (readSource source pair.source) sourceMember.shape
          targetMember.shape (readTarget target pair.destination) = .ok value ∧
        write = .writeMember targetLocal pair.destination value := by
  unfold memberWrite
  cases hs : sourceShape.members[pair.source]? with
  | none => simp [pure, Except.pure]
  | some sourceMember =>
    cases ht : targetShape.members[pair.destination]? with
    | none => simp [pure, Except.pure]
    | some targetMember =>
      simp only [Except.bind_eq_ok_iff]
      constructor
      · rintro ⟨value, hvalue, h⟩
        cases h
        exact ⟨sourceMember, targetMember, value, rfl, rfl, hvalue, rfl⟩
      · rintro ⟨_, _, value, hs', ht', hvalue, rfl⟩
        cases hs'
        cases ht'
        exact ⟨value, hvalue, rfl⟩

/-- A pair of members that are there is written. -/
theorem exists_of_memberWrite {pair : MemberPair} {sourceMember targetMember : Member}
    {write? : Option Expr} (hsource : sourceShape.members[pair.source]? = some sourceMember)
    (htarget : targetShape.members[pair.destination]? = some targetMember)
    (h : memberWrite pool mapping source sourceShape target targetShape pair = .ok write?) :
    ∃ write, write? = some write := by
  unfold memberWrite at h
  simp only [hsource, htarget] at h
  obtain ⟨value, -, h⟩ := Except.bind_eq_ok_iff.mp h
  cases h
  exact ⟨_, rfl⟩

/-- What the value of a pair accesses. -/
theorem mem_accesses_value {pair : MemberPair} {sourceMember targetMember : Member}
    {value x : Expr} (h : memberValue pool mapping (readSource source pair.source)
      sourceMember.shape targetMember.shape (readTarget target pair.destination) = .ok value) :
    x ∈ value.accesses ↔ mapping.PairReads pool source target pair sourceMember targetMember x := by
  rw [mem_accesses_memberValue h]
  simp [PairReads, readSource, readTarget, Expr.accesses]

theorem accesses_construction (c : Construction) (shape : ShapeId) (first : LocalId) :
    (c.expr shape first).accesses = [] := by
  cases c <;> rfl

/-- What the program into a record accesses : it writes the paired members, reads those of the
source, and reads those of the destination that are reused. -/
theorem mem_accesses_recordProgram
    (h : recordProgram pool mapping source sourceShape target targetShape = .ok program)
    {x : Expr} : x ∈ program.body.accesses ↔ ∃ pair sourceMember targetMember,
      mapping.Pairs sourceShape targetShape pair sourceMember targetMember ∧
        (memberWrite pool mapping source sourceShape target targetShape pair = .ok (some x) ∨
          mapping.PairReads pool source target pair sourceMember targetMember x) := by
  obtain ⟨writes, hwrites, h⟩ := Except.bind_eq_ok_iff.mp h
  obtain ⟨writes?, hmapM, hwrites⟩ := Except.bind_eq_ok_iff.mp hwrites
  cases hwrites
  cases h
  have hbody : x ∈ Expr.accessesAll (writes?.flatMap Option.toList) ↔
      ∃ pair ∈ mapping.rules.pairs sourceShape targetShape, ∃ write,
        memberWrite pool mapping source sourceShape target targetShape pair = .ok (some write) ∧
          x ∈ write.accesses := by
    rw [Expr.mem_accessesAll]
    constructor
    · rintro ⟨write, hwrite, hx⟩
      obtain ⟨write?, hmem, hsome⟩ := List.mem_flatMap.mp hwrite
      rw [Option.mem_toList] at hsome
      subst hsome
      obtain ⟨pair, hpair, hwrite⟩ := (Except.mem_iff_of_mapM_eq_ok hmapM).mp hmem
      exact ⟨pair, hpair, write, hwrite, hx⟩
    · rintro ⟨pair, hpair, write, hwrite, hx⟩
      have hmem := (Except.mem_iff_of_mapM_eq_ok hmapM).mpr ⟨pair, hpair, hwrite⟩
      exact ⟨write, List.mem_flatMap.mpr ⟨some write, hmem, Option.mem_toList.mpr rfl⟩, hx⟩
  have hresult : (if targetShape.valueType then Expr.box (.readLocal targetLocal)
      else .readLocal targetLocal).accesses = [] := by
    cases targetShape.valueType <;> rfl
  simp only [Expr.accesses, Expr.accessesAll, Expr.accessesAll_append, accesses_construction,
    hresult, List.nil_append, List.append_nil, hbody]
  constructor
  · rintro ⟨pair, hpair, write, hwrite, hx⟩
    obtain ⟨sourceMember, targetMember, value, hs, ht, hvalue, rfl⟩ :=
      memberWrite_eq_some_iff.mp hwrite
    refine ⟨pair, sourceMember, targetMember, ⟨hpair, hs, ht⟩, ?_⟩
    rcases List.mem_cons.mp hx with rfl | hx
    · exact .inl hwrite
    · exact .inr ((mem_accesses_value hvalue).mp hx)
  · rintro ⟨pair, sourceMember, targetMember, ⟨hpair, hs, ht⟩, hx⟩
    obtain ⟨write?, hwrite?⟩ := Except.exists_of_mapM_eq_ok hmapM hpair
    obtain ⟨write, rfl⟩ := exists_of_memberWrite hs ht hwrite?
    refine ⟨pair, hpair, write, hwrite?, ?_⟩
    obtain ⟨_, _, value, hs', ht', hvalue, rfl⟩ := memberWrite_eq_some_iff.mp hwrite?
    cases hs.symm.trans hs'
    cases ht.symm.trans ht'
    rcases hx with hwrite | hreads
    · cases hwrite?.symm.trans hwrite
      exact List.mem_cons_self
    · exact List.mem_cons_of_mem _ ((mem_accesses_value hvalue).mpr hreads)

/-! ## Plans -/

/-- Between two records without a converter, the plan is the program into a record. -/
theorem recordProgram_of_plan (hsource : pool.descriptor source = .ok sourceShape)
    (hsourceKind : sourceShape.kind = .record) (htarget : pool.descriptor target = .ok targetShape)
    (htargetKind : targetShape.kind = .record) (hnone : mapping.converterFor source target = none)
    (h : mapping.plan pool source target = .ok (.program program)) :
    recordProgram pool mapping source sourceShape target targetShape = .ok program := by
  have hbelow := Pool.stripNullable_of_descriptor hsource (by simp [hsourceKind])
  have hbelow' := Pool.stripNullable_of_descriptor htarget (by simp [htargetKind])
  unfold plan converterProgram at h
  simp only [hnone, Option.map_none] at h
  obtain ⟨_, hs, h⟩ := Except.bind_eq_ok_iff.mp h
  obtain ⟨_, ht, h⟩ := Except.bind_eq_ok_iff.mp h
  cases hbelow.symm.trans (Pool.orCompileError_eq_ok_iff.mp hs)
  cases hbelow'.symm.trans (Pool.orCompileError_eq_ok_iff.mp ht)
  simp only [hnone, Option.map_none, generatedPlan] at h
  obtain ⟨_, hs, h⟩ := Except.bind_eq_ok_iff.mp h
  obtain ⟨_, ht, h⟩ := Except.bind_eq_ok_iff.mp h
  cases hsource.symm.trans (Pool.orCompileError_eq_ok_iff.mp hs)
  cases htarget.symm.trans (Pool.orCompileError_eq_ok_iff.mp ht)
  simp only [Descriptor.isCollection, hsourceKind, htargetKind] at h
  obtain ⟨_, hprogram, h⟩ := Except.bind_eq_ok_iff.mp h
  cases h
  exact hprogram

/-- A converter takes the place of all accesses. -/
theorem accesses_of_converterFor {id : ConverterId}
    (hfound : mapping.converterFor source target = some id)
    (h : mapping.plan pool source target = .ok (.program program)) :
    program.body.accesses = [] := by
  unfold plan converterProgram at h
  simp only [hfound, Option.map_some] at h
  cases h
  rfl

/-- The rules pair readable members with writable ones. -/
theorem Pairs.access {rules : NameRules} (hrules : mapping.rules = rules.toRules)
    {pair : MemberPair} {sourceMember targetMember : Member}
    (h : mapping.Pairs sourceShape targetShape pair sourceMember targetMember) :
    sourceMember.access.readable = true ∧ targetMember.access.writable = true := by
  have hmem := h.mem
  rw [hrules] at hmem
  obtain ⟨m, hm, htakes, hsource⟩ := NameRules.mem_pairs_iff.mp hmem
  obtain ⟨m', hm', hreadable⟩ := NameRules.readable_of_sourceIndex? hsource
  cases h.destination.symm.trans hm
  cases h.source.symm.trans hm'
  exact ⟨hreadable, (Bool.and_eq_true_iff.mp htakes).1⟩

/-- The program between two records writes writable members of the destination, and reads
readable members of the source and writable members of the destination. It reads a member that is
not readable iff it reuses what a paired write-only member holds. -/
theorem accesses_of_plan {rules : NameRules} (hrules : mapping.rules = rules.toRules)
    (hsource : pool.descriptor source = .ok sourceShape) (hsourceKind : sourceShape.kind = .record)
    (htarget : pool.descriptor target = .ok targetShape) (htargetKind : targetShape.kind = .record)
    (hplan : mapping.plan pool source target = .ok (.program program)) :
    (∀ id member value, .writeMember id member value ∈ program.body.accesses →
      id = targetLocal ∧ pool.Writable target member) ∧
    (∀ object shape member, .readMember object shape member ∈ program.body.accesses →
      object = .readLocal sourceLocal ∧ shape = source ∧ pool.Readable source member ∨
        object = .readLocal targetLocal ∧ shape = target ∧ pool.Writable target member) ∧
    ((∃ object shape member, .readMember object shape member ∈ program.body.accesses ∧
        ¬pool.Readable shape member) ↔
      mapping.converterFor source target = none ∧ ∃ pair sourceMember targetMember,
        mapping.Pairs sourceShape targetShape pair sourceMember targetMember ∧
          mapping.Reuses pool sourceMember.shape targetMember.shape ∧
            targetMember.access.readable = false) := by
  cases hfound : mapping.converterFor source target with
  | some id => simp [accesses_of_converterFor hfound hplan]
  | none =>
    have hprogram :=
      recordProgram_of_plan hsource hsourceKind htarget htargetKind hfound hplan
    have haccesses {x : Expr} := mem_accesses_recordProgram hprogram (x := x)
    have hwritable {pair : MemberPair} {sourceMember targetMember : Member}
        (h : mapping.Pairs sourceShape targetShape pair sourceMember targetMember) :
        pool.Writable target pair.destination :=
      ⟨targetShape, targetMember, htarget, h.destination, (h.access hrules).2⟩
    have hreadable {pair : MemberPair} {sourceMember targetMember : Member}
        (h : mapping.Pairs sourceShape targetShape pair sourceMember targetMember) :
        pool.Readable source pair.source :=
      ⟨sourceShape, sourceMember, hsource, h.source, (h.access hrules).1⟩
    have hread {object : Expr} {shape : ShapeId} {member : Nat}
        (h : .readMember object shape member ∈ program.body.accesses) :
        ∃ pair sourceMember targetMember,
          mapping.Pairs sourceShape targetShape pair sourceMember targetMember ∧
            mapping.PairReads pool source target pair sourceMember targetMember
              (.readMember object shape member) := by
      obtain ⟨pair, sourceMember, targetMember, hpair, hwrite | hreads⟩ := haccesses.mp h
      · obtain ⟨_, _, _, -, -, -, heq⟩ := memberWrite_eq_some_iff.mp hwrite
        cases heq
      · exact ⟨pair, sourceMember, targetMember, hpair, hreads⟩
    refine ⟨fun id member value h => ?_, fun object shape member h => ?_, ?_, ?_⟩
    · obtain ⟨pair, sourceMember, targetMember, hpair, hwrite | hsource | ⟨-, htarget⟩⟩ :=
        haccesses.mp h
      · obtain ⟨_, _, _, -, -, -, heq⟩ := memberWrite_eq_some_iff.mp hwrite
        cases heq
        exact ⟨rfl, hwritable hpair⟩
      · cases hsource
      · cases htarget
    · obtain ⟨pair, sourceMember, targetMember, hpair, hsource | ⟨-, htarget⟩⟩ := hread h
      · cases hsource
        exact .inl ⟨rfl, rfl, hreadable hpair⟩
      · cases htarget
        exact .inr ⟨rfl, rfl, hwritable hpair⟩
    · rintro ⟨object, shape, member, h, hforbidden⟩
      obtain ⟨pair, sourceMember, targetMember, hpair, heq | ⟨hreuses, heq⟩⟩ := hread h
      · cases heq
        exact absurd (hreadable hpair) hforbidden
      · cases heq
        refine ⟨rfl, pair, sourceMember, targetMember, hpair, hreuses, ?_⟩
        exact Bool.eq_false_iff.mpr fun hr =>
          hforbidden ⟨targetShape, targetMember, htarget, hpair.destination, hr⟩
    · rintro ⟨-, pair, sourceMember, targetMember, hpair, hreuses, hforbidden⟩
      refine ⟨_, target, pair.destination, haccesses.mpr
        ⟨pair, sourceMember, targetMember, hpair, .inr (.inr ⟨hreuses, rfl⟩)⟩, ?_⟩
      rintro ⟨_, _, hs, hm, hr⟩
      cases htarget.symm.trans hs
      cases hpair.destination.symm.trans hm
      rw [hforbidden] at hr
      cases hr

end Mapping

/-! ## A member that is only written -/

namespace Sealed

/-- A record without members. -/
def tag : Descriptor := .ofRecord "Tag" []

/-- A record with a tag that may be read. -/
def note : Descriptor := .ofRecord "Note" [⟨"tag", ⟨7⟩, {}⟩]

/-- A record with a tag that may only be written. -/
def letter : Descriptor := .ofRecord "Letter" [⟨"tag", ⟨7⟩, ⟨false, true⟩⟩]

def pool : Pool :=
  [⟨"Tag", some tag⟩, ⟨"Note", some note⟩, ⟨"Letter", some letter⟩].foldl Pool.push Pool.initial

/-- The tag of a letter would be reused. -/
theorem reuses : Mapping.initial.Reuses pool ⟨7⟩ ⟨7⟩ :=
  ⟨rfl, ⟨7⟩, ⟨7⟩, tag, rfl, ⟨rfl, rfl⟩, rfl, nofun, nofun, nofun⟩

end Sealed

/-- The program from a note to a letter reads the tag of the letter. -/
theorem Mapping.reads_of_sealed : ∃ program,
    Mapping.initial.plan Sealed.pool ⟨8⟩ ⟨9⟩ = .ok (.program program) ∧
      ∃ object shape member, .readMember object shape member ∈ program.body.accesses ∧
        ¬Sealed.pool.Readable shape member := by
  refine ⟨_, rfl, ?_⟩
  have hsource : Sealed.pool.descriptor ⟨8⟩ = .ok Sealed.note := rfl
  have htarget : Sealed.pool.descriptor ⟨9⟩ = .ok Sealed.letter := rfl
  have hrules : Mapping.initial.rules = NameRules.toRules {} := rfl
  refine (accesses_of_plan hrules hsource rfl htarget rfl rfl).2.2.mpr
    ⟨rfl, ⟨0, 0⟩, _, _, ⟨?_, rfl, rfl⟩, Sealed.reuses, rfl⟩
  exact List.mem_singleton.mpr rfl

end Reshape
