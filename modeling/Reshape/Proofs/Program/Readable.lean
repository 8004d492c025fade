import Reshape.Program.Text

/-!
# Reading programs back

A text shows which expression it was written of, and where that expression ends, whatever follows
it (`Expr.readable_render`). The word in front tells the operator, the number of operands goes with
the operator, and the children of a sequence go on until a parenthesis stands where the next line
would begin.

So no text of an expression is the beginning of another's, and a program can be told from its text
(`Program.text_identifies`).
-/

namespace Reshape

/-! ## Texts that show where they end -/

/-- Of a text that begins with what is written of something, one can tell what it was written of,
and what comes after. -/
def Readable {α : Type} (write : α → String) : Prop :=
  ∀ ⦃a b : α⦄ ⦃x y : String⦄, write a ++ x = write b ++ y → a = b ∧ x = y

section

variable {α : Type} {write : α → String} {a b : α} {x y d : String}

theorem Readable.append_iff (h : Readable write) :
    write a ++ x = write b ++ y ↔ a = b ∧ x = y :=
  ⟨fun heq => h heq, fun ⟨hab, hxy⟩ => hab ▸ hxy ▸ rfl⟩

/-- One of two beginnings of a text is the beginning of the other. -/
theorem prefix_or_prefix_of_append {d d' : String} (h : d ++ x = d' ++ y) :
    d.toList <+: d'.toList ∨ d'.toList <+: d.toList := by
  have hlist : d.toList ++ x.toList = d'.toList ++ y.toList := by
    rw [← String.toList_append, h, String.toList_append]
  exact List.prefix_or_prefix_of_prefix ⟨x.toList, hlist⟩ ⟨y.toList, rfl⟩

/-- What can be read is never the beginning of anything else. -/
theorem readable_iff_prefix :
    Readable write ↔ ∀ a b, (write a).toList <+: (write b).toList → a = b := by
  constructor
  · rintro h a b ⟨rest, hrest⟩
    have hwhole : write a ++ String.ofList rest = write b ++ "" := by
      rw [← String.toList_inj, String.toList_append, String.toList_ofList, hrest,
        String.append_empty]
    exact (h hwhole).1
  · intro h a b x y hxy
    have hab : a = b := by
      rcases prefix_or_prefix_of_append hxy with hp | hp
      · exact h a b hp
      · exact (h b a hp).symm
    subst hab
    exact ⟨rfl, (String.append_right_inj _).mp hxy⟩

end

/-! ### Numbers -/

/-- A number in front of the text ends there : the text begins with something else than a digit. -/
def EndsNumber (x : String) : Prop := x.toList.head?.any (fun c => !c.isDigit) = true

instance (x : String) : Decidable (EndsNumber x) := inferInstanceAs (Decidable (_ = _))

section

variable {m n : Nat} {id id' : LocalId} {s t : ShapeId} {d x y : String}

theorem EndsNumber.takeWhile (h : EndsNumber x) : x.toList.takeWhile Char.isDigit = [] := by
  unfold EndsNumber at h
  cases hx : x.toList with
  | nil => rfl
  | cons c cs =>
    rw [hx] at h
    exact List.takeWhile_cons_of_neg (by simpa using h)

theorem EndsNumber.append (h : EndsNumber d) (x : String) : EndsNumber (d ++ x) := by
  unfold EndsNumber at h ⊢
  rw [String.toList_append, List.head?_append]
  cases hd : d.toList.head? with
  | none =>
    rw [hd] at h
    cases h
  | some c =>
    rw [hd] at h
    exact h

/-- A number ends where its digits end. -/
theorem natText_append_inj (hx : EndsNumber x) (hy : EndsNumber y)
    (h : String.ofList (natText m) ++ x = String.ofList (natText n) ++ y) : m = n ∧ x = y := by
  have hlist : natText m ++ x.toList = natText n ++ y.toList := by
    simpa [String.toList_append] using congrArg String.toList h
  have hdigits : natText m = natText n := by
    have htake := congrArg (List.takeWhile Char.isDigit) hlist
    rwa [List.takeWhile_append_of_pos fun _ => isDigit_of_mem_natText,
      List.takeWhile_append_of_pos fun _ => isDigit_of_mem_natText, hx.takeWhile, hy.takeWhile,
      List.append_nil, List.append_nil] at htake
  have hmn : m = n := by
    have hread := congrArg readNat? hdigits
    rwa [readNat?_natText, readNat?_natText, Option.some.injEq] at hread
  subst hmn
  exact ⟨rfl, (String.append_right_inj _).mp h⟩

theorem ShapeId.text_append_inj (hx : EndsNumber x) (hy : EndsNumber y)
    (h : s.text ++ x = t.text ++ y) : s = t ∧ x = y := by
  unfold ShapeId.text at h
  simp only [String.ofList_cons, String.append_assoc, String.append_right_inj] at h
  obtain ⟨hst, hxy⟩ := natText_append_inj hx hy h
  exact ⟨congrArg ShapeId.mk hst, hxy⟩

theorem natText_append_iff (hd : EndsNumber d) :
    String.ofList (natText m) ++ (d ++ x) = String.ofList (natText n) ++ (d ++ y) ↔
      m = n ∧ x = y := by
  constructor
  · intro h
    obtain ⟨hmn, hxy⟩ := natText_append_inj (hd.append x) (hd.append y) h
    exact ⟨hmn, (String.append_right_inj d).mp hxy⟩
  · rintro ⟨rfl, rfl⟩
    rfl

theorem ShapeId.text_append_iff (hd : EndsNumber d) :
    s.text ++ (d ++ x) = t.text ++ (d ++ y) ↔ s = t ∧ x = y := by
  cases s
  cases t
  simp only [ShapeId.text, String.ofList_cons, String.append_assoc, String.append_right_inj,
    natText_append_iff hd, mk.injEq]

theorem LocalId.text_append_iff (hd : EndsNumber d) :
    id.text ++ (d ++ x) = id'.text ++ (d ++ y) ↔ id = id' ∧ x = y := by
  cases id
  cases id'
  simp only [LocalId.text, String.ofList_cons, String.append_assoc, String.append_right_inj,
    natText_append_iff hd, mk.injEq]

end

/-! ### Names -/

theorem Argument.readable_name : Readable Argument.name :=
  readable_iff_prefix.mpr fun a b => by cases a <;> cases b <;> decide

theorem Primitive.readable_name : Readable Primitive.name :=
  readable_iff_prefix.mpr fun a b => by cases a <;> cases b <;> decide

/-- No primitive is called like a converter. -/
theorem Primitive.name_append_ne_custom (a : Primitive) (x y : String) :
    a.name ++ x ≠ "custom" ++ y := by
  intro h
  have hprefix := prefix_or_prefix_of_append h
  revert hprefix
  cases a <;> decide

theorem Conversion.text_append_iff {c c' : Conversion} {d x y : String} (hd : EndsNumber d) :
    c.text ++ (d ++ x) = c'.text ++ (d ++ y) ↔ c = c' ∧ x = y := by
  cases c with
  | primitive a b =>
    cases c' with
    | primitive a' b' =>
      simp only [text, String.append_assoc, Primitive.readable_name.append_iff,
        String.append_right_inj, primitive.injEq, and_assoc]
    | custom id =>
      simp only [text, String.append_assoc, Primitive.name_append_ne_custom, reduceCtorEq,
        false_and]
  | custom id =>
    cases c' with
    | primitive a b =>
      simp only [text, String.append_assoc, (Primitive.name_append_ne_custom _ _ _).symm,
        reduceCtorEq, false_and]
    | custom id' =>
      cases id
      cases id'
      simp only [text, String.append_assoc, String.append_right_inj, natText_append_iff hd,
        custom.injEq, ConverterId.mk.injEq]

/-! ## Expressions -/

/-- What an expression does with its operands. -/
inductive Operator where
  | argument
  | readLocal
  | writeLocal
  | declareLocal
  | newInstance
  | box
  | unbox
  | returns
  | sequence
  | invoke
  | null
  | readMember
  | writeMember
  | coalesce
  | ifNotNull
  | convert
  deriving DecidableEq

/-- The word that an expression begins with. -/
def Operator.word : Operator → String
  | argument => "(arg "
  | readLocal => "(read "
  | writeLocal => "(write "
  | declareLocal => "(declare "
  | newInstance => "(new "
  | box => "(box "
  | unbox => "(unbox "
  | returns => "(return "
  | sequence => "(seq"
  | invoke => "(invoke "
  | null => "null"
  | readMember => "(member "
  | writeMember => "(set "
  | coalesce => "(coalesce "
  | ifNotNull => "(if-not-null "
  | convert => "(convert "

theorem Operator.readable_word : Readable Operator.word :=
  readable_iff_prefix.mpr fun a b => by cases a <;> cases b <;> decide

namespace Expr

/-- The operator that an expression is headed by. -/
def operator : Expr → Operator
  | argument _ => .argument
  | readLocal _ => .readLocal
  | writeLocal _ _ => .writeLocal
  | declareLocal _ _ => .declareLocal
  | newInstance _ => .newInstance
  | box _ => .box
  | unbox _ => .unbox
  | returns _ => .returns
  | sequence _ => .sequence
  | invoke _ _ _ _ => .invoke
  | null => .null
  | readMember _ _ _ => .readMember
  | writeMember _ _ _ => .writeMember
  | coalesce _ _ => .coalesce
  | ifNotNull _ _ => .ifNotNull
  | convert _ _ => .convert

theorem exists_render_eq (indent : Nat) (e : Expr) :
    ∃ rest, e.render indent = e.operator.word ++ rest := by
  cases e with
  | null => exact ⟨"", rfl⟩
  | _ =>
    simp only [render, String.append_assoc]
    exact ⟨_, rfl⟩

variable {indent : Nat} {e e' : Expr} {x y : String}

/-- Expressions of different operators are told apart by their words. -/
theorem render_append_iff_of_ne (h : e.operator ≠ e'.operator) :
    e.render indent ++ x = e'.render indent ++ y ↔ e = e' ∧ x = y := by
  refine ⟨fun heq => ?_, fun heq => absurd (congrArg operator heq.1) h⟩
  obtain ⟨rest, hrest⟩ := exists_render_eq indent e
  obtain ⟨rest', hrest'⟩ := exists_render_eq indent e'
  rw [hrest, hrest', String.append_assoc, String.append_assoc] at heq
  exact absurd (Operator.readable_word heq).1 h

mutual

/-- The texts are compared part by part : words, numbers and names, and then the operands. -/
theorem render_append_iff : ∀ (indent : Nat) (e e' : Expr) (x y : String),
    e.render indent ++ x = e'.render indent ++ y ↔ e = e' ∧ x = y
  | indent, .argument a, e', x, y => by
    cases e' with
    | argument a' =>
      simp only [render, String.append_assoc, String.append_right_inj,
        Argument.readable_name.append_iff, argument.injEq]
    | _ => exact render_append_iff_of_ne nofun
  | indent, .readLocal id, e', x, y => by
    cases e' with
    | readLocal id' =>
      simp (disch := decide) only [render, String.append_assoc, String.append_right_inj,
        LocalId.text_append_iff, readLocal.injEq]
    | _ => exact render_append_iff_of_ne nofun
  | indent, .writeLocal id value, e', x, y => by
    cases e' with
    | writeLocal id' value' =>
      simp (disch := decide) only [render, String.append_assoc, String.append_right_inj,
        LocalId.text_append_iff, render_append_iff indent value, writeLocal.injEq, and_assoc]
    | _ => exact render_append_iff_of_ne nofun
  | indent, .declareLocal id shape, e', x, y => by
    cases e' with
    | declareLocal id' shape' =>
      simp (disch := decide) only [render, String.append_assoc, String.append_right_inj,
        LocalId.text_append_iff, ShapeId.text_append_iff, declareLocal.injEq, and_assoc]
    | _ => exact render_append_iff_of_ne nofun
  | indent, .newInstance shape, e', x, y => by
    cases e' with
    | newInstance shape' =>
      simp (disch := decide) only [render, String.append_assoc, String.append_right_inj,
        ShapeId.text_append_iff, newInstance.injEq]
    | _ => exact render_append_iff_of_ne nofun
  | indent, .box value, e', x, y => by
    cases e' with
    | box value' =>
      simp only [render, String.append_assoc, String.append_right_inj,
        render_append_iff indent value, box.injEq]
    | _ => exact render_append_iff_of_ne nofun
  | indent, .unbox value, e', x, y => by
    cases e' with
    | unbox value' =>
      simp only [render, String.append_assoc, String.append_right_inj,
        render_append_iff indent value, unbox.injEq]
    | _ => exact render_append_iff_of_ne nofun
  | indent, .returns value, e', x, y => by
    cases e' with
    | returns value' =>
      simp only [render, String.append_assoc, String.append_right_inj,
        render_append_iff indent value, returns.injEq]
    | _ => exact render_append_iff_of_ne nofun
  | indent, .sequence children, e', x, y => by
    cases e' with
    | sequence children' =>
      simp only [render, String.append_assoc, String.append_right_inj,
        renderLines_append_iff (indent + 1) children, sequence.injEq]
    | _ => exact render_append_iff_of_ne nofun
  | indent, .invoke source target value destination, e', x, y => by
    cases e' with
    | invoke source' target' value' destination' =>
      simp (disch := decide) only [render, String.append_assoc, String.append_right_inj,
        ShapeId.text_append_iff, render_append_iff indent value,
        render_append_iff indent destination, invoke.injEq, and_assoc]
    | _ => exact render_append_iff_of_ne nofun
  | indent, .null, e', x, y => by
    cases e' with
    | null => simp only [String.append_right_inj, true_and]
    | _ => exact render_append_iff_of_ne nofun
  | indent, .readMember object shape member, e', x, y => by
    cases e' with
    | readMember object' shape' member' =>
      simp (disch := decide) only [render, memberText, String.append_assoc,
        String.append_right_inj, ShapeId.text_append_iff, natText_append_iff,
        render_append_iff indent object, readMember.injEq, and_assoc, and_left_comm]
    | _ => exact render_append_iff_of_ne nofun
  | indent, .writeMember id member value, e', x, y => by
    cases e' with
    | writeMember id' member' value' =>
      simp (disch := decide) only [render, memberText, String.append_assoc,
        String.append_right_inj, LocalId.text_append_iff, natText_append_iff,
        render_append_iff indent value, writeMember.injEq, and_assoc]
    | _ => exact render_append_iff_of_ne nofun
  | indent, .coalesce value fallback, e', x, y => by
    cases e' with
    | coalesce value' fallback' =>
      simp only [render, String.append_assoc, String.append_right_inj,
        render_append_iff indent value, render_append_iff indent fallback, coalesce.injEq,
        and_assoc]
    | _ => exact render_append_iff_of_ne nofun
  | indent, .ifNotNull test body, e', x, y => by
    cases e' with
    | ifNotNull test' body' =>
      simp only [render, String.append_assoc, String.append_right_inj,
        render_append_iff indent test, render_append_iff indent body, ifNotNull.injEq, and_assoc]
    | _ => exact render_append_iff_of_ne nofun
  | indent, .convert conversion value, e', x, y => by
    cases e' with
    | convert conversion' value' =>
      simp (disch := decide) only [render, String.append_assoc, String.append_right_inj,
        Conversion.text_append_iff, render_append_iff indent value, convert.injEq, and_assoc]
    | _ => exact render_append_iff_of_ne nofun

/-- The lines end where a parenthesis stands, and no new line. -/
theorem renderLines_append_iff : ∀ (indent : Nat) (es es' : List Expr) (x y : String),
    renderLines indent es ++ (")" ++ x) = renderLines indent es' ++ (")" ++ y) ↔
      es = es' ∧ x = y
  | indent, [], [], x, y => by
    simp only [renderLines, String.append_right_inj, true_and]
  | indent, [], e' :: es', x, y => by
    simp only [renderLines, String.empty_append, String.append_assoc]
    exact iff_of_false (fun h => absurd (prefix_or_prefix_of_append h) (by decide)) nofun
  | indent, e :: es, [], x, y => by
    simp only [renderLines, String.empty_append, String.append_assoc]
    exact iff_of_false (fun h => absurd (prefix_or_prefix_of_append h) (by decide)) nofun
  | indent, e :: es, e' :: es', x, y => by
    simp only [renderLines, String.append_assoc, String.append_right_inj,
      render_append_iff indent e, renderLines_append_iff indent es, List.cons.injEq, and_assoc]

end

/-- The text of an expression shows what it is the text of, and where it ends. -/
theorem readable_render (indent : Nat) : Readable (render indent) :=
  fun a b x y => (render_append_iff indent a b x y).mp

end Expr

/-! ## Programs -/

namespace Program

variable {first : Nat} {s s' : ShapeId} {shapes shapes' : List ShapeId} {x y : String}

/-- The table of the locals, without what stands in front. -/
def tableText (first : Nat) (shapes : List ShapeId) : String :=
  String.intercalate ", " (localTexts first shapes)

theorem tableText_singleton :
    tableText first [s] = (⟨first⟩ : LocalId).text ++ (": " ++ s.text) := by
  rw [tableText, localTexts, localTexts, String.intercalate_singleton, String.append_assoc]

theorem tableText_cons_cons : tableText first (s :: s' :: shapes) =
    (⟨first⟩ : LocalId).text ++ (": " ++ (s.text ++ (", " ++
      tableText (first + 1) (s' :: shapes)))) := by
  simp only [tableText, localTexts, String.intercalate_cons_cons, String.append_assoc]

/-- Behind the last local stands no comma. -/
theorem tableText_singleton_append_ne {t : ShapeId} :
    tableText first [s] ++ ("\n" ++ x) ≠ tableText first (s' :: t :: shapes) ++ ("\n" ++ y) := by
  intro h
  simp only [tableText_singleton, tableText_cons_cons, String.append_assoc,
    String.append_right_inj] at h
  have hrest := (ShapeId.text_append_inj (.append (by decide) _) (.append (by decide) _) h).2
  exact absurd (prefix_or_prefix_of_append hrest) (by decide)

/-- The table goes on after a comma, and ends with the line. -/
theorem tableText_append_inj
    (h : tableText first (s :: shapes) ++ ("\n" ++ x) =
      tableText first (s' :: shapes') ++ ("\n" ++ y)) :
    s :: shapes = s' :: shapes' ∧ x = y := by
  induction shapes generalizing first s s' shapes' with
  | nil =>
    cases shapes' with
    | nil =>
      simp (disch := decide) only [tableText_singleton, String.append_assoc,
        String.append_right_inj, ShapeId.text_append_iff] at h
      exact ⟨by rw [h.1], h.2⟩
    | cons t' shapes' =>
      exact absurd h tableText_singleton_append_ne
  | cons t shapes ih =>
    cases shapes' with
    | nil =>
      exact absurd h.symm tableText_singleton_append_ne
    | cons t' shapes' =>
      simp (disch := decide) only [tableText_cons_cons, String.append_assoc,
        String.append_right_inj, ShapeId.text_append_iff] at h
      obtain ⟨hshapes, hxy⟩ := ih h.2
      exact ⟨by rw [h.1, hshapes], hxy⟩

theorem text_eq (program : Program) : program.text =
    "locals:" ++ ((if program.locals.isEmpty then "" else " " ++ tableText 0 program.locals) ++
      ("\n" ++ program.body.text)) := by
  simp only [text, tableText, String.append_assoc]

theorem text_injective : Function.Injective text := by
  rintro ⟨locals, body⟩ ⟨locals', body'⟩ h
  rw [text_eq, text_eq, String.append_right_inj] at h
  obtain ⟨rfl, hbody⟩ : locals = locals' ∧ body.text = body'.text := by
    cases locals with
    | nil =>
      cases locals' with
      | nil => exact ⟨rfl, (String.append_right_inj _).mp ((String.append_right_inj _).mp h)⟩
      | cons s' shapes' =>
        simp only [List.isEmpty_nil, List.isEmpty_cons, if_true, Bool.false_eq_true, if_false,
          String.empty_append, String.append_assoc] at h
        exact absurd (prefix_or_prefix_of_append h) (by decide)
    | cons s shapes =>
      simp only [List.isEmpty_cons, Bool.false_eq_true, if_false, String.append_assoc] at h
      cases locals' with
      | nil =>
        simp only [List.isEmpty_nil, if_true, String.empty_append] at h
        exact absurd (prefix_or_prefix_of_append h) (by decide)
      | cons s' shapes' =>
        simp only [List.isEmpty_cons, Bool.false_eq_true, if_false, String.append_assoc,
          String.append_right_inj] at h
        exact tableText_append_inj h
  obtain ⟨rfl, -⟩ := Expr.readable_render 0 (congrArg (· ++ "") hbody)
  rfl

/-- Programs are told apart by their texts. And no expression is written, at any depth, as another
one is with something behind it. -/
theorem text_identifies :
    (∀ p q : Program, p.text = q.text ↔ p = q) ∧
    ∀ (indent : Nat) (a b : Expr) (rest : String),
      a.render indent ++ rest = b.render indent ↔ a = b ∧ rest = "" := by
  refine ⟨fun _ _ => text_injective.eq_iff, fun indent a b rest => ?_⟩
  rw [← (Expr.readable_render indent).append_iff, String.append_empty]

end Program

end Reshape
