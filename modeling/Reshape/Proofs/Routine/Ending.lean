import Reshape.Proofs.Routine.Endless
import Reshape.Proofs.Routine.Frame
import Reshape.Proofs.Routine.Settling
import Reshape.Proofs.Routine.Sparing

/-!
# Conversions that end

The chain of requests behind a conversion of a finite value comes to an end (`Request.acc`), and a
form settles if all that it asks for does (`Contract.form_settles`). So the conversion ends, with a
value or with an error (`FiniteConversion.run_ends`) : the induction is along the chain. The shapes
of `Circle` show that what is asked for beyond a finite value cannot be left out
(`FiniteConversion.not_run_ends`).
-/

namespace Reshape

namespace Contract

variable {c : Contract} {pool : Pool} {mappings : Mapping → Prop} {mapping : Mapping}
  {start : Session}

/-- Where the chain of requests ends, the runs for the first request settle. -/
theorem settles_of_acc (hc : c.Sound pool) (hnullable : WellFounded pool.IsNullable)
    (hcontains : WellFounded pool.Contains)
    (hany : ∀ id known, pool.descriptor id = .ok known → known.kind = .any → id = ShapeId.any)
    (hm : c.allows mapping) (hunique : ∀ m, mappings m → m.id = mapping.id → m = mapping)
    (hkept : ∀ s, c.Leads pool mappings start s → start.heap.Kept s.heap) {p : Value → Prop}
    {q : Request} (hq : Acc (Request.Follows pool mapping start.heap) q)
    (hv : start.heap.Finite p q.value) : c.Settles pool mappings mapping.id start q := by
  induction hq with
  | intro q _ ih =>
    intro s r d state hl hr hkey hsource htarget
    obtain ⟨owner, howned⟩ := hl.held.coherent
    obtain ⟨i, registry, hi, hmem⟩ := hr
    obtain ⟨hlt, howner, -, hmade⟩ := howned.routine i registry hi r hmem
    have hid : r.key.mapping = mapping.id := by rw [hkey]
    have heq : r.linkage.mapping = mapping :=
      hunique _ (howner ▸ howned.linkage _ hlt) (hmade.mapping.symm.trans hid)
    have hbody := hmade.body
    rw [hl.held.pool_eq, heq, hkey] at hbody
    obtain ⟨below, known, below', known', hs, ht, form, hrun, hform⟩ :=
      Mapping.exists_form hc.grows (hc.converters hm) hbody
    let frame : Frame := ⟨q.value, d, state, r.linkage⟩
    have hwithin (n : Nat) : Within c pool mappings (Routine.run n) frame r :=
      ⟨rfl, fun h hr' hkey' => hc.run_meets (fun m h h' => (hunique m h h').symm ▸ hm) n h hr'
        (hkey'.trans hid) state⟩
    have hasks (next : Request) (h : form.Asks start.heap q.value next) :
        c.Settles pool mappings mapping.id start next := by
      have hnext : next.Follows pool mapping start.heap q :=
        ⟨form, ⟨_, _, _, _, _, hbody, hs, ht, hrun, hform⟩, h⟩
      refine ih next hnext ?_
      rcases hnext.inside_or_turns hc.grows hany with hinside | ⟨_, _, _, _, -, -, hvalue, -⟩
      · exact hv.of_inside hinside
      · exact hvalue ▸ hv
    refine .of_succ (.of_eq (fun n => ?_) (form_settles hc hnullable hcontains hkept hid hwithin hm
      hs.self ht.self hv hform hasks hl ⟨i, registry, hi, hmem⟩
      (hc.values.source_below hs hsource) (hc.values.target_below ht htarget)))
    rw [Routine.run_succ, hrun]

end Contract

/-! ## Conversions -/

/-- A finite value, none of its parts of the shape `any`, is to go through a routine of a mapping
without converters. In the pool neither nullable shapes nor fields of structs go around in a circle,
and `any` is the only shape of its kind. -/
structure FiniteConversion (mappings : Mapping → Prop) (mapping : Mapping) (s : Session)
    (r : Routine) (v : Value) : Prop where
  reachable : s.Reachable mappings
  allows : mappings mapping
  unique : ∀ m m', mappings m → mappings m' → m.id = m'.id → m = m'
  converters : mapping.converters = []
  nullable : WellFounded s.pool.IsNullable
  contained : WellFounded s.pool.Contains
  any : ∀ id known, s.pool.descriptor id = .ok known → known.kind = .any → id = ShapeId.any
  knows : s.Knows r
  key_mapping : r.key.mapping = mapping.id
  finite : s.heap.Finite (fun u => s.heap.shape? u ≠ some ShapeId.any) v

/-- From some depth on, the run for the value always ends the same way, with a value or with an
error of the conversion, which is not that shapes go around in a circle. -/
def Routine.Ends (r : Routine) (v : Value) (s : Session) : Prop :=
  ∀ state, ∃ depth, (∃ w s', ∀ more, depth ≤ more → r.run more v .null state s = .ok w s') ∨
    ∃ e s', (∀ id, e ≠ .compile (.shape (.endless id))) ∧
      ∀ more, depth ≤ more → r.run more v .null state s = .error (.failed e) s'

namespace Circle

theorem grows : Pool.initial.GrowsTo pool :=
  pool_eq ▸ Pool.growsTo_foldl operations Pool.initial

/-- Only one shape is nullable, and it comes after the one that it makes nullable. -/
theorem nullable : WellFounded pool.IsNullable := by
  refine Subrelation.wf ?_ (InvImage.wf ShapeId.index Nat.lt_wfRel.wf)
  rintro inner ⟨n⟩ ⟨known, hknown, hkind⟩
  match n with
  | 8 =>
    cases hknown
    cases hkind
    exact (by decide : 5 < 8)
  | 0 | 1 | 2 | 3 | 4 | 5 | 6 | 7 | 9 | 10 | 11 | 12 =>
    cases hknown
    cases hkind
  | n + 13 => cases hknown

/-- No record is a struct. -/
theorem contained : WellFounded pool.Contains := by
  refine ⟨fun id => ⟨id, fun inner ⟨known, hknown, hkind, htype, _⟩ => ?_⟩⟩
  obtain ⟨n⟩ := id
  match n with
  | 0 | 1 | 2 | 3 | 4 | 5 | 6 | 7 | 8 | 9 | 12 =>
    cases hknown
    cases hkind
  | 10 | 11 =>
    cases hknown
    cases htype
  | n + 13 => cases hknown

theorem any (id : ShapeId) (known : Descriptor) (hknown : pool.descriptor id = .ok known)
    (hkind : known.kind = .any) : id = ShapeId.any := by
  obtain ⟨n⟩ := id
  match n with
  | 5 => rfl
  | 0 | 1 | 2 | 3 | 4 | 6 | 7 | 8 | 9 | 10 | 11 | 12 =>
    cases hknown
    cases hkind
  | n + 13 => cases hknown

/-- The sessions of the pool are as they should be. -/
theorem conversion {heap : Heap} {mapping : Mapping} {source target : ShapeId}
    (hkept : Kept heap mapping source target) (hconverters : mapping.converters = []) {v : Value}
    (hfinite : heap.Finite (fun u => heap.shape? u ≠ some ShapeId.any) v) :
    FiniteConversion (· = mapping) mapping (session heap mapping source target)
      (routine heap mapping source target) v := by
  obtain ⟨hpool, hheap⟩ := session_eq heap mapping source target
  obtain ⟨hlive, -⟩ := live hkept
  constructor
  · exact Session.reachable_compiling operations heap mapping source target
  · rfl
  · exact fun m m' h h' _ => h.trans h'.symm
  · exact hconverters
  · exact hpool ▸ nullable
  · exact hpool ▸ contained
  · exact hpool ▸ any
  · exact hlive.knows
  · exact hlive.mapping
  · rw [hheap]
    exact hfinite

/-- The value is finite, and yet its conversion never ends. -/
def Diverges (heap : Heap) (mapping : Mapping) (source target : ShapeId) (v : Value) : Prop :=
  FiniteConversion (· = mapping) mapping (session heap mapping source target)
      (routine heap mapping source target) v ∧
    (routine heap mapping source target).Endless v (session heap mapping source target)

theorem finite_record :
    record.Finite (fun u => record.shape? u ≠ some ShapeId.any) (.ref ⟨2⟩) := by
  have hbag : record.Finite (fun u => record.shape? u ≠ some ShapeId.any) (.ref ⟨0⟩) :=
    .of_parts rfl nofun nofun
  refine .of_parts rfl nofun fun u hu => ?_
  rcases List.mem_cons.mp hu with rfl | hu
  · exact hbag
  · obtain rfl := List.mem_singleton.mp hu
    refine .of_parts rfl nofun fun u hu => ?_
    obtain rfl := List.mem_singleton.mp hu
    exact hbag

theorem scalar_int : pool.Scalar ShapeId.int := by
  intro below known hb
  have hint : pool.Below ShapeId.int ShapeId.int (.ofPrimitive .int) := ⟨rfl, rfl⟩
  obtain ⟨rfl, rfl⟩ := hint.unique hb
  exact ⟨nofun, rfl⟩

theorem genuine_number : Heap.Genuine pool {} (.int 5) := by
  intro own below known hown hb
  obtain rfl : ShapeId.int = own := Option.some.inj hown
  obtain ⟨hany, hcollection⟩ := scalar_int below known hb
  exact ⟨hany, fun h => absurd h (by simp [hcollection])⟩

/-- Texts are no collections. -/
theorem acc_texts : Acc (pool.Nests .deep) ⟨12⟩ := by
  have htexts : pool.Below ⟨12⟩ ⟨12⟩ (.ofCollection "[str]" .array (some ShapeId.str)) := ⟨rfl, rfl⟩
  have hstr : pool.Below ShapeId.str ShapeId.str (.ofPrimitive .str) := ⟨rfl, rfl⟩
  refine ⟨_, fun _ ⟨_, _, _, hb, _, _, heq⟩ => ?_⟩
  obtain ⟨rfl, rfl⟩ := htexts.unique hb
  obtain rfl := heq
  refine ⟨_, fun _ ⟨_, _, _, hb', hkind, _⟩ => ?_⟩
  obtain ⟨rfl, rfl⟩ := hstr.unique hb'
  cases hkind

/-- Lists of lists, one of them in two places. -/
def nested : Heap where
  instances := #[.seq ShapeId.untypedList #[.ref ⟨1⟩, .ref ⟨2⟩], .seq ⟨7⟩ #[.ref ⟨2⟩], .seq ⟨7⟩ #[]]

/-- The value has elements, and shows a genuine shape, which is not `any`. -/
def Shown (u : Value) : Prop :=
  nested.shape? u ≠ some ShapeId.any ∧ nested.Genuine pool u ∧ nested.elements? u ≠ none

theorem finite_nested : nested.Finite Shown (.ref ⟨0⟩) := by
  have hlist {u : Value} {own : ShapeId} {known : Descriptor} {es : List Value}
      (hown : nested.shape? u = some own) (hb : pool.Below own own known)
      (hkind : known.kind ≠ .any) (hes : nested.elements? u = some es) : Shown u := by
    refine ⟨?_, fun own' below known' hown' hb' => ?_, by simp [hes]⟩
    · rw [hown]
      rintro ⟨⟩
      exact hkind (hb.kind_eq_any grows)
    · obtain rfl := Option.some.inj (hown.symm.trans hown')
      obtain ⟨rfl, rfl⟩ := hb.unique hb'
      exact ⟨hkind, fun _ => by simp [hes]⟩
  have hL : pool.Below ⟨7⟩ ⟨7⟩ (.ofCollection "L" .list (some ⟨7⟩)) := ⟨rfl, rfl⟩
  have huntyped : pool.Below ShapeId.untypedList ShapeId.untypedList
      (.ofCollection "list" .untypedList none) := ⟨rfl, rfl⟩
  have hempty : nested.Finite Shown (.ref ⟨2⟩) := .of_parts rfl (hlist rfl hL nofun rfl) nofun
  have hone : nested.Finite Shown (.ref ⟨1⟩) := by
    refine .of_parts rfl (hlist rfl hL nofun rfl) fun u hu => ?_
    obtain rfl := List.mem_singleton.mp hu
    exact hempty
  refine .of_parts rfl (hlist rfl huntyped nofun rfl) fun u hu => ?_
  rcases List.mem_cons.mp hu with rfl | hu
  · exact hone
  · obtain rfl := List.mem_singleton.mp hu
    exact hempty

end Circle

/-- The conversion of a finite value ends, with a value or with an error, if the value shows genuine
shapes, no value that is not a collection is on the way to become a collection of collections
without end, and the mapping copies deep or its rules write no member twice. -/
theorem FiniteConversion.run_ends {mappings : Mapping → Prop} {mapping : Mapping} {s : Session}
    {r : Routine} {v : Value} (h : FiniteConversion mappings mapping s r v)
    (hgenuine : ∀ u, u = v ∨ s.heap.Inside u v → s.heap.Genuine s.pool u)
    (hfounded : Request.Founded s.pool mapping s.heap ⟨v, r.key.source, r.key.target⟩)
    (hrules : mapping.copyMode = .deep ∨ ∀ known known',
      ((mapping.rules.pairs known known').map MemberPair.destination).Nodup) :
    r.Ends v s := by
  intro state
  have hpool := h.reachable.growsTo
  have hacc := Request.acc hpool h.any (h.finite.of_forall hgenuine) hfounded
  have hunique (m : Mapping) (hm : mappings m) (hid : m.id = mapping.id) : m = mapping :=
    h.unique m mapping hm h.allows hid
  have hkey : r.key = ⟨r.key.source, r.key.target, mapping.id⟩ := by rw [← h.key_mapping]
  have hsettles : RunM.Settles (fun n => r.run n v .null state) s := by
    rcases hrules with hdeep | hnodup
    · exact Contract.settles_of_acc (Contract.sparing_sound hpool) h.nullable h.contained h.any
        ⟨h.converters, hdeep⟩ hunique (fun _ hl => hl.held.inv.kept) hacc h.finite s r .null state
        ⟨⟨h.reachable.coherent, rfl, .self _ _⟩, .refl _, fun _ hr => hr⟩ h.knows hkey trivial .null
    · have hallows : Contract.preserving.allows mapping :=
        ⟨h.converters, fun known known' =>
          (hnodup known known').sublist (List.filter_sublist.map _)⟩
      exact Contract.settles_of_acc (Contract.preserving_sound hpool) h.nullable h.contained h.any
        hallows hunique (fun _ hl => hl.later) hacc h.finite s r .null state
        ⟨⟨h.reachable.coherent, rfl, trivial⟩, .refl _, fun _ hr => hr⟩ h.knows hkey trivial .null
  obtain ⟨depth, hvalue | ⟨stop, s', hproper, hrun⟩⟩ := hsettles
  · exact ⟨depth, Or.inl hvalue⟩
  · cases stop with
    | tooDeep => exact hproper.elim
    | failed e =>
      refine ⟨depth, Or.inr ⟨e, s', ?_, hrun⟩⟩
      rintro id rfl
      exact hproper

/-- A number becomes an array of texts, and a list of lists becomes one of the shape whose elements
are of the shape itself. -/
theorem FiniteConversion.run_ends_number_nested :
    (Circle.routine {} .initial ShapeId.int ⟨12⟩).Ends (.int 5)
        (Circle.session {} .initial ShapeId.int ⟨12⟩) ∧
      (Circle.routine Circle.nested .initial ShapeId.untypedList ⟨7⟩).Ends (.ref ⟨0⟩)
        (Circle.session Circle.nested .initial ShapeId.untypedList ⟨7⟩) := by
  constructor
  · obtain ⟨hpool, hheap⟩ := Circle.session_eq {} .initial ShapeId.int ⟨12⟩
    have hkept : Circle.Kept {} .initial ShapeId.int ⟨12⟩ := by decide +kernel
    have h := Circle.conversion hkept rfl (.of_held nofun nofun nofun : Heap.Finite {} _ (.int 5))
    refine FiniteConversion.run_ends h ?_ ?_ (Or.inl rfl)
    · rw [hheap, hpool]
      rintro u (rfl | hu)
      · exact Circle.genuine_number
      · exact (Heap.not_inside rfl hu).elim
    · rw [hheap, hpool, (Circle.live hkept).2]
      exact Request.founded_of_scalar Circle.grows Circle.any rfl Circle.genuine_number
        Circle.scalar_int Circle.acc_texts
  · obtain ⟨hpool, hheap⟩ := Circle.session_eq Circle.nested .initial ShapeId.untypedList ⟨7⟩
    have hshown (u : Value) (hu : u = .ref ⟨0⟩ ∨ Circle.nested.Inside u (.ref ⟨0⟩)) :
        Circle.Shown u := by
      rcases hu with rfl | hu
      · exact Circle.finite_nested.holds
      · exact (Circle.finite_nested.of_inside hu).holds
    have hkept : Circle.Kept Circle.nested .initial ShapeId.untypedList ⟨7⟩ := by decide +kernel
    have h := Circle.conversion hkept rfl
      (Circle.finite_nested.of_forall fun u hu => (hshown u hu).1)
    refine FiniteConversion.run_ends h ?_ ?_ (Or.inl rfl)
    · rw [hheap, hpool]
      exact fun u hu => (hshown u hu).2.1
    · rw [hheap, hpool]
      exact Request.founded_of_elements Circle.grows Circle.any fun u hu => (hshown u hu).2.2

/-- What is asked for beyond a finite conversion cannot be left out. A number does not become a list
of lists without end ; objects that say they are lists, or may be anything, are not copied ; and a
record is not filled by rules that put its bag into itself first. -/
theorem FiniteConversion.not_run_ends :
    Circle.Diverges {} .initial ShapeId.int ⟨7⟩ (.int 5) ∧
      Circle.Diverges (Circle.object ShapeId.untypedList) .initial ShapeId.untypedList
        ShapeId.untypedList (.ref ⟨0⟩) ∧
      Circle.Diverges (Circle.object ⟨8⟩) .initial ⟨8⟩ ⟨8⟩ (.ref ⟨0⟩) ∧
      Circle.Diverges Circle.record Circle.twice ⟨10⟩ ⟨11⟩ (.ref ⟨2⟩) := by
  refine ⟨⟨?_, Circle.endless_number⟩, ⟨?_, Circle.endless_list⟩, ⟨?_, Circle.endless_any⟩, ?_,
    Circle.endless_record⟩
  · exact Circle.conversion (by decide +kernel) rfl (.of_held nofun nofun nofun)
  · exact Circle.conversion (by decide +kernel) rfl (.of_parts rfl nofun nofun)
  · exact Circle.conversion (by decide +kernel) rfl (.of_parts rfl nofun nofun)
  · exact Circle.conversion (by decide +kernel) rfl Circle.finite_record

end Reshape
