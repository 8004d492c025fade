import Reshape.Proofs.Session.Transparency
import Reshape.Routine.Depth

/-!
# Runs of different depth

Two routines may come to the same and yet need runs of different depth for it. `Attained` compares a
computation with computations of all depths : where it ends, and not for want of depth, they end
alike from some depth on. `RunM.Coincide` says so of two families of computations, each of the
other : where one ends, so does the other, with the same value or error, the same values and the
same calls.
-/

namespace Reshape

section

variable {α β : Type} {p q : Session → Session → Prop}

/-- What `x` comes to from `s`, unless it is for want of depth, the `y` come to from `t` from some
depth on. -/
def Attained (p : Session → Session → Prop) (x : RunM α) (y : Nat → RunM α) (s t : Session) :
    Prop :=
  (∃ s', x s = .error .tooDeep s') ∨
    ∃ n outcome, (∀ m, n ≤ m → y m t = outcome) ∧ Alike p (x s) outcome

namespace Attained

variable {x : RunM α} {y : Nat → RunM α} {s t : Session}

theorem of_alike {y : RunM α} (h : Alike p (x s) (y t)) : Attained p x (fun _ => y) s t :=
  .inr ⟨0, y t, fun _ _ => rfl, h⟩

theorem of_eq {x' : RunM α} {y' : Nat → RunM α} {s' t' : Session} (hx : x s = x' s')
    (hy : ∀ n, y n t = y' n t') (h : Attained p x' y' s' t') : Attained p x y s t := by
  unfold Attained at *
  simp only [hx, hy]
  exact h

/-- One routine more within another makes no difference. -/
theorem of_succ (h : Attained p x (fun n => y (n + 1)) s t) : Attained p x y s t := by
  refine h.imp_right ?_
  rintro ⟨n, outcome, hy, halike⟩
  refine ⟨n + 1, outcome, fun m hm => ?_, halike⟩
  obtain ⟨m, rfl⟩ : ∃ k, m = k + 1 := ⟨m - 1, by omega⟩
  exact hy m (Nat.le_of_succ_le_succ hm)

theorem bind {f : α → RunM β} {g : Nat → α → RunM β} (h : Attained p x y s t)
    (hpq : ∀ s t, p s t → q s t)
    (hf : ∀ a s' t', p s' t' → Attained q (f a) (fun n => g n a) s' t') :
    Attained q (x >>= f) (fun n => y n >>= g n) s t := by
  change (∃ s', EStateM.bind x f s = .error .tooDeep s') ∨ ∃ n outcome,
    (∀ m, n ≤ m → EStateM.bind (y m) (g m) t = outcome) ∧ Alike q (EStateM.bind x f s) outcome
  unfold EStateM.bind
  rcases h with ⟨s', hx⟩ | ⟨n, outcome, hy, halike⟩
  · rw [hx]
    exact .inl ⟨s', rfl⟩
  · cases hx : x s with
    | error stop s' =>
      rw [hx] at halike
      cases outcome with
      | ok b t' => exact halike.elim
      | error stop' t' =>
        refine .inr ⟨n, .error stop' t', fun m hm => ?_, halike.1, hpq _ _ halike.2⟩
        rw [hy m hm]
    | ok a s' =>
      rw [hx] at halike
      cases outcome with
      | error stop' t' => exact halike.elim
      | ok b t' =>
        obtain ⟨rfl, hp⟩ := halike
        refine (hf a s' t' hp).imp_right ?_
        rintro ⟨n', outcome, hg, halike⟩
        refine ⟨max n n', outcome, fun m hm => ?_, halike⟩
        rw [hy m (Nat.le_trans (Nat.le_max_left n n') hm)]
        exact hg m (Nat.le_trans (Nat.le_max_right n n') hm)

theorem map (f : α → β) (h : Attained p x y s t) :
    Attained p (f <$> x) (fun n => f <$> y n) s t := by
  simp only [map_eq_pure_bind]
  exact h.bind (fun _ _ h => h) fun a s' t' hp => .of_alike ⟨rfl, hp⟩

/-- What is ensured of the sessions left behind on either side. -/
theorem and {left right : Session → Prop} (h : Attained p x y s t)
    (hx : Ensures x s (fun _ => left) fun _ => left)
    (hy : ∀ n, Ensures (y n) t (fun _ => right) fun _ => right) :
    Attained (fun s t => p s t ∧ left s ∧ right t) x y s t := by
  refine h.imp_right ?_
  rintro ⟨n, outcome, hout, halike⟩
  have hy := hy n
  unfold Ensures at hx hy
  rw [hout n (Nat.le_refl n)] at hy
  refine ⟨n, outcome, hout, ?_⟩
  cases hxs : x s <;> cases outcome <;> rw [hxs] at hx halike
  case ok.ok => exact ⟨halike.1, halike.2, hx, hy⟩
  case error.error => exact ⟨halike.1, halike.2, hx, hy⟩
  all_goals exact halike.elim

end Attained

/-! ## Coincidence -/

theorem Session.Same.refl (s : Session) : s.Same s :=
  ⟨rfl, rfl⟩

theorem Session.Same.symm {s t : Session} (h : s.Same t) : t.Same s :=
  ⟨h.heap.symm, h.calls.symm⟩

theorem Session.Same.trans {s t u : Session} (h : s.Same t) (h' : t.Same u) : s.Same u :=
  ⟨h'.heap.trans h.heap, h'.calls.trans h.calls⟩

/-- A change of the heap. -/
theorem Session.Same.onHeap {s t : Session} (h : s.Same t) (f : Heap → α × Heap) :
    Alike Session.Same (RunM.onHeap f s) (RunM.onHeap f t) := by
  unfold RunM.onHeap
  rw [h.heap]
  exact ⟨rfl, rfl, h.calls⟩

/-- From the session, where one of the two ends, given depth enough, the other does so too, with
the same value or the same error, the same values in the heap and the same calls of converters. -/
structure RunM.Coincide (x y : Nat → RunM α) (s : Session) : Prop where
  left : ∀ depth, Attained Session.Same (x depth) y s s
  right : ∀ depth, Attained Session.Same (y depth) x s s

end

/-- Runs that need no more depth do not change with more of it. -/
theorem Attained.of_run {p : Session → Session → Prop} {x y : RunM Routine} {depth : Nat}
    {v d state : Value} {s t : Session}
    (h : Alike p ((x >>= fun r => r.run depth v d state) s)
      ((y >>= fun r => r.run depth v d state) t)) :
    Attained p (x >>= fun r => r.run depth v d state) (fun n => y >>= fun r => r.run n v d state)
      s t := by
  by_cases hdeep : ∃ t', (y >>= fun r => r.run depth v d state) t = .error .tooDeep t'
  · obtain ⟨t', ht⟩ := hdeep
    rw [ht] at h
    cases hx : (x >>= fun r => r.run depth v d state) s with
    | ok a s' =>
      rw [hx] at h
      exact h.elim
    | error stop s' =>
      rw [hx] at h
      exact .inl ⟨s', by rw [hx, h.1]⟩
  · refine .inr ⟨depth, _, fun m hm => ?_, h⟩
    change ¬∃ t', EStateM.bind y _ t = .error .tooDeep t' at hdeep
    change EStateM.bind y _ t = EStateM.bind y _ t
    unfold EStateM.bind at hdeep ⊢
    cases hy : y t with
    | error stop t' => rfl
    | ok r t' =>
      rw [hy] at hdeep
      exact Routine.run_of_le hm fun t'' ht => hdeep ⟨t'', ht⟩

end Reshape
