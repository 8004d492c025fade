/-!
# Depths that suffice

Descents through shapes and instances are cut off at a depth that goes by their number. Where
nothing leads back to itself that depth is never reached : from one to the next there is one
less left to meet (`holds_ahead`, `holds_within`). Among finitely many, a descent goes on for
ever just where it comes to something that leads back to itself (`LeadsAround`).
-/

namespace Reshape

theorem countP_lt_countP {α : Type} {p q : α → Bool} {as : List α}
    (hpq : ∀ a, p a = true → q a = true) {a : α} (ha : a ∈ as) (hp : p a = false)
    (hq : q a = true) : as.countP p < as.countP q := by
  induction as with
  | nil => cases ha
  | cons b as ih =>
    rw [List.countP_cons, List.countP_cons]
    have hle : as.countP p ≤ as.countP q := List.countP_mono_left fun a _ => hpq a
    rcases List.mem_cons.mp ha with rfl | ha
    · simp [hp, hq]
      omega
    · have hlt := ih ha
      cases hb : p b with
      | false => simp; omega
      | true => simp [hpq b hb]; omega

theorem not_rel_of_acc {α : Type} {leads : α → α → Prop} {a : α} (h : Acc leads a) :
    ¬ leads a a := by
  induction h with
  | intro a _ ih => exact fun hloop => ih a hloop hloop

/-! ## Circles -/

/-- One comes from `a` to something that leads back to itself. -/
def LeadsAround {α : Type} (leads : α → α → Prop) (a : α) : Prop :=
  ∃ b, (b = a ∨ Relation.TransGen leads b a) ∧ Relation.TransGen leads b b

section

variable {α : Type} {leads : α → α → Prop} {a b : α}

theorem LeadsAround.of_leads (hba : leads b a) (h : LeadsAround leads b) : LeadsAround leads a := by
  obtain ⟨c, rfl | hcb, hround⟩ := h
  · exact ⟨c, .inr (.single hba), hround⟩
  · exact ⟨c, .inr (hcb.tail hba), hround⟩

theorem LeadsAround.imp {leads' : α → α → Prop} (hle : ∀ b a, leads b a → leads' b a)
    (h : LeadsAround leads a) : LeadsAround leads' a := by
  have htrans {b c : α} (hbc : Relation.TransGen leads b c) : Relation.TransGen leads' b c := by
    induction hbc with
    | single hbc => exact .single (hle _ _ hbc)
    | tail _ hcd ih => exact ih.tail (hle _ _ hcd)
  obtain ⟨b, hba, hround⟩ := h
  exact ⟨b, hba.imp_right htrans, htrans hround⟩

theorem not_leadsAround_of_acc (h : Acc leads a) : ¬ LeadsAround leads a := by
  rintro ⟨b, rfl | hba, hround⟩
  · exact not_rel_of_acc h.transGen hround
  · exact not_rel_of_acc (h.transGen.inv hba) hround

open Classical in
/-- What holds of `a` with one more step than of all that it leads to, holds after more steps than
there are to come to, unless one of them leads back to itself. -/
theorem holds_ahead (leads : α → α → Prop) {as : List α} (has : ∀ a b, leads b a → b ∈ as)
    (p : Nat → α → Prop) (hstep : ∀ n a, (∀ b, leads b a → p n b) → p (n + 1) a)
    (h : ¬ LeadsAround leads a) {n : Nat}
    (hlt : as.countP (fun b => decide (Relation.TransGen leads b a)) < n) : p n a := by
  induction n generalizing a with
  | zero => exact absurd hlt (Nat.not_lt_zero _)
  | succ n ih =>
    refine hstep n a fun b hba => ih (fun hb => h (hb.of_leads hba)) ?_
    refine Nat.lt_of_lt_of_le (countP_lt_countP (fun c hc => ?_) (has a b hba) ?_ ?_)
      (Nat.lt_succ_iff.mp hlt)
    · exact decide_eq_true ((of_decide_eq_true hc).tail hba)
    · exact decide_eq_false fun hround => h ⟨b, .inr (.single hba), hround⟩
    · exact decide_eq_true (.single hba)

/-- One of those that there are to come to does not come to itself. -/
theorem holds_ahead_of_mem (leads : α → α → Prop) {as : List α}
    (has : ∀ a b, leads b a → b ∈ as) (p : Nat → α → Prop)
    (hstep : ∀ n a, (∀ b, leads b a → p n b) → p (n + 1) a) (h : ¬ LeadsAround leads a)
    (ha : a ∈ as) : p as.length a := by
  classical
  refine holds_ahead leads has p hstep h ?_
  have hcount : as.countP (fun b => decide (Relation.TransGen leads b a)) <
      as.countP fun _ => true :=
    countP_lt_countP (fun _ _ => rfl) ha (decide_eq_false fun hround => h ⟨a, .inl rfl, hround⟩) rfl
  exact Nat.lt_of_lt_of_le hcount List.countP_le_length

/-- Where finitely many lead on, every descent that comes to no circle ends. -/
theorem acc_of_not_leadsAround (as : List α) (has : ∀ a b, leads b a → a ∈ as)
    (h : ¬ LeadsAround leads a) : Acc leads a := by
  classical
  let leads' (b a : α) : Prop := leads b a ∧ b ∈ as
  have h' : ¬ LeadsAround leads' a := fun h' => h (h'.imp fun _ _ hba => hba.1)
  refine holds_ahead leads' (fun _ _ hba => hba.2) (fun _ => Acc leads)
    (fun _ a ih => ⟨a, fun b hba => ?_⟩) h' (Nat.lt_succ_self _)
  by_cases hb : b ∈ as
  · exact ih b ⟨hba, hb⟩
  · exact ⟨b, fun c hcb => absurd (has b c hcb) hb⟩

end

/-! ## Numbers -/

section

variable {bound : Nat} (leads : Nat → Nat → Prop) (hbound : ∀ i j, leads j i → j < bound)
  (p : Nat → Nat → Prop) (hstep : ∀ n i, (∀ j, leads j i → p n j) → p (n + 1) i) {i : Nat}

include hbound hstep

/-- It holds after as many steps as there are numbers, and one. -/
theorem holds_within (hi : Acc leads i) : p (bound + 1) i := by
  classical
  refine holds_ahead leads (fun i j hij => List.mem_range.mpr (hbound i j hij)) p hstep
    (not_leadsAround_of_acc hi) (Nat.lt_succ_of_le ?_)
  exact Nat.le_trans List.countP_le_length (Nat.le_of_eq List.length_range)

/-- One step less is enough for the numbers themselves, which do not lead to themselves. -/
theorem holds_within_of_lt (hi : Acc leads i) (hlt : i < bound) : p bound i := by
  have hholds := holds_ahead_of_mem leads (fun i j hij => List.mem_range.mpr (hbound i j hij)) p
    hstep (not_leadsAround_of_acc hi) (List.mem_range.mpr hlt)
  rwa [List.length_range] at hholds

end

/-- What holds from the first step on of all numbers beyond the bound, and of the others with one
more step than of all that they lead to. -/
theorem holds_beyond {bound : Nat} (leads : Nat → Nat → Prop) (p : Nat → Nat → Prop)
    (hout : ∀ n i, bound ≤ i → p (n + 1) i)
    (hstep : ∀ n i, (∀ j, leads j i → p n j) → p (n + 1) i) {i : Nat} (hi : Acc leads i) :
    p (bound + 1) i := by
  let leads' (j i : Nat) : Prop := leads j i ∧ j < bound
  rcases Nat.lt_or_ge i bound with hlt | hge
  · have hi' : Acc leads' i := Subrelation.accessible And.left hi
    refine holds_within_of_lt leads' (fun _ _ h => h.2) (fun n i => p (n + 1) i)
      (fun n i h => hstep (n + 1) i fun j hij => ?_) hi' hlt
    rcases Nat.lt_or_ge j bound with hj | hj
    · exact h j ⟨hij, hj⟩
    · exact hout n j hj
  · exact hout bound i hge

/-- What holds of each element from some depth on holds of all of them from some depth on. -/
theorem exists_depth {α : Type} {p : Nat → α → Prop} (as : List α)
    (h : ∀ a ∈ as, ∃ n, ∀ depth, n ≤ depth → p depth a) :
    ∃ n, ∀ depth, n ≤ depth → ∀ a ∈ as, p depth a := by
  induction as with
  | nil => exact ⟨0, fun _ _ _ ha => nomatch ha⟩
  | cons a as ih =>
    obtain ⟨n, hn⟩ := h a List.mem_cons_self
    obtain ⟨m, hm⟩ := ih fun b hb => h b (List.mem_cons_of_mem a hb)
    refine ⟨max n m, fun depth hdepth b hb => ?_⟩
    rcases List.mem_cons.mp hb with rfl | hb
    · exact hn depth (Nat.le_trans (Nat.le_max_left n m) hdepth)
    · exact hm depth (Nat.le_trans (Nat.le_max_right n m) hdepth) b hb

end Reshape
