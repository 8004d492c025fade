import Reshape.Routine.Eval

/-!
# Outcomes

A computation with state ends with a value or an error, and leaves a state behind either way.
`Ensures` says what holds of the outcome from a given state ; its laws take a computation
apart along its binds, so that nothing is said about one part twice. `After` is the state
that is left behind. `Eventually` is about computations with a bound that is great enough.

Getting ready and planning leave nothing behind where they fail. For them it is enough to know
how a success came about (`ReadyM.bind_eq_ok_iff`, `Except.bind_eq_ok_iff`), and sometimes it is for
runs (`EStateM.bind_eq_ok_iff`).
-/

namespace Reshape

/-! ## Successes -/

section

variable {ε α β : Type}

theorem Except.bind_eq_ok_iff {x : Except ε α} {f : α → Except ε β} {b : β} :
    (x >>= f) = .ok b ↔ ∃ a, x = .ok a ∧ f a = .ok b := by
  constructor
  · intro h
    cases x with
    | error e => cases h
    | ok a => exact ⟨a, rfl, h⟩
  · rintro ⟨a, rfl, h⟩
    exact h

theorem Except.map_eq_ok_iff {x : Except ε α} {f : α → β} {b : β} :
    (f <$> x) = .ok b ↔ ∃ a, x = .ok a ∧ f a = b := by
  constructor
  · intro h
    cases x with
    | error e => cases h
    | ok a =>
      cases h
      exact ⟨a, rfl, rfl⟩
  · rintro ⟨a, rfl, rfl⟩
    rfl

theorem Except.map_eq_error_iff {x : Except ε α} {f : α → β} {e : ε} :
    (f <$> x) = .error e ↔ x = .error e := by
  cases x with
  | error e' => exact ⟨fun h => by cases h; rfl, fun h => by cases h; rfl⟩
  | ok a => exact ⟨nofun, nofun⟩

/-- What comes of a list, element by element. -/
theorem Except.of_mapM_eq_ok {f : α → Except ε β} {as : List α} {bs : List β}
    (h : as.mapM f = .ok bs) : bs.length = as.length ∧
      ∀ (i : Nat) (a : α) (b : β), as[i]? = some a → bs[i]? = some b → f a = .ok b := by
  induction as generalizing bs with
  | nil =>
    cases h
    exact ⟨rfl, fun i a b ha => by simp at ha⟩
  | cons a as ih =>
    rw [List.mapM_cons] at h
    obtain ⟨b, hb, h⟩ := Except.bind_eq_ok_iff.mp h
    obtain ⟨bs, hbs, h⟩ := Except.bind_eq_ok_iff.mp h
    cases h
    obtain ⟨hlength, hall⟩ := ih hbs
    refine ⟨by rw [List.length_cons, List.length_cons, hlength], fun i a' b' ha hb' => ?_⟩
    cases i with
    | zero =>
      cases ha
      cases hb'
      exact hb
    | succ i => exact hall i a' b' ha hb'

/-- What is in the list comes of some element. -/
theorem Except.mem_iff_of_mapM_eq_ok {f : α → Except ε β} {as : List α} {bs : List β}
    (h : as.mapM f = .ok bs) {b : β} : b ∈ bs ↔ ∃ a ∈ as, f a = .ok b := by
  obtain ⟨hlength, hall⟩ := Except.of_mapM_eq_ok h
  constructor
  · intro hb
    obtain ⟨i, hi⟩ := List.mem_iff_getElem?.mp hb
    have hlt : i < as.length := hlength ▸ (List.getElem?_eq_some_iff.mp hi).1
    have ha := List.getElem?_eq_getElem hlt
    exact ⟨as[i], List.mem_of_getElem? ha, hall i as[i] b ha hi⟩
  · rintro ⟨a, ha, hb⟩
    obtain ⟨i, hi⟩ := List.mem_iff_getElem?.mp ha
    have hlt : i < bs.length := hlength ▸ (List.getElem?_eq_some_iff.mp hi).1
    have hb' := List.getElem?_eq_getElem hlt
    cases hb.symm.trans (hall i a bs[i] hi hb')
    exact List.mem_of_getElem? hb'

/-- If something comes of the list, something comes of each element. -/
theorem Except.exists_of_mapM_eq_ok {f : α → Except ε β} {as : List α} {bs : List β}
    (h : as.mapM f = .ok bs) {a : α} (ha : a ∈ as) : ∃ b, f a = .ok b := by
  obtain ⟨hlength, hall⟩ := Except.of_mapM_eq_ok h
  obtain ⟨i, hi⟩ := List.mem_iff_getElem?.mp ha
  have hlt : i < bs.length := hlength ▸ (List.getElem?_eq_some_iff.mp hi).1
  exact ⟨bs[i], hall i a bs[i] hi (List.getElem?_eq_getElem hlt)⟩

/-- If something comes of each element, something comes of the list. -/
theorem Except.exists_mapM_eq_ok_forall {f : α → Except ε β} {as : List α} {p : β → Prop}
    (h : ∀ a ∈ as, ∃ b, f a = .ok b ∧ p b) : ∃ bs, as.mapM f = .ok bs ∧ ∀ b ∈ bs, p b := by
  induction as with
  | nil => exact ⟨[], rfl, fun _ hb => nomatch hb⟩
  | cons a as ih =>
    obtain ⟨b, hb, hp⟩ := h a List.mem_cons_self
    obtain ⟨bs, hbs, hps⟩ := ih fun a ha => h a (List.mem_cons_of_mem _ ha)
    rw [List.mapM_cons]
    refine ⟨b :: bs, ?_, List.forall_mem_cons.mpr ⟨hp, hps⟩⟩
    exact Except.bind_eq_ok_iff.mpr ⟨b, hb, Except.bind_eq_ok_iff.mpr ⟨bs, hbs, rfl⟩⟩

theorem Except.exists_mapM_eq_ok {f : α → Except ε β} {as : List α}
    (h : ∀ a ∈ as, ∃ b, f a = .ok b) : ∃ bs, as.mapM f = .ok bs := by
  have hall : ∀ a ∈ as, ∃ b, f a = .ok b ∧ True :=
    fun a ha => (h a ha).imp fun _ hb => ⟨hb, trivial⟩
  obtain ⟨bs, hbs, -⟩ := Except.exists_mapM_eq_ok_forall hall
  exact ⟨bs, hbs⟩

theorem Except.mapM_congr {f g : α → Except ε β} {as : List α} (h : ∀ a ∈ as, f a = g a) :
    as.mapM f = as.mapM g := by
  induction as with
  | nil => rfl
  | cons a as ih =>
    rw [List.mapM_cons, List.mapM_cons, h a List.mem_cons_self,
      ih fun b hb => h b (List.mem_cons_of_mem _ hb)]

/-- What comes of a list fails as the first element does that fails. -/
theorem Except.mapM_eq_error_iff {f : α → Except ε β} {as : List α} {e : ε} :
    as.mapM f = .error e ↔ ∃ (i : Nat) (a : α), as[i]? = some a ∧ f a = .error e ∧
      ∀ j < i, ∀ b, as[j]? = some b → ∃ c, f b = .ok c := by
  induction as with
  | nil => exact ⟨nofun, fun ⟨_, _, ha, _⟩ => nomatch ha⟩
  | cons a as ih =>
    rw [List.mapM_cons]
    cases ha : f a with
    | error e' =>
      constructor
      · rintro ⟨⟩
        exact ⟨0, a, rfl, ha, fun j hj => absurd hj (Nat.not_lt_zero j)⟩
      · rintro ⟨i, b, hb, hfails, hbefore⟩
        cases i with
        | zero =>
          cases hb
          cases ha.symm.trans hfails
          rfl
        | succ i =>
          obtain ⟨c, hc⟩ := hbefore 0 (Nat.succ_pos i) a rfl
          cases ha.symm.trans hc
    | ok c =>
      have hrest : (Except.ok c >>= fun c => do return c :: (← as.mapM f)) = .error e ↔
          as.mapM f = .error e := by
        cases as.mapM f with
        | error e' => exact Iff.rfl
        | ok cs => exact ⟨nofun, nofun⟩
      rw [hrest, ih]
      constructor
      · rintro ⟨i, b, hb, hfails, hbefore⟩
        refine ⟨i + 1, b, hb, hfails, fun j hj b' hb' => ?_⟩
        cases j with
        | zero =>
          cases hb'
          exact ⟨c, ha⟩
        | succ j => exact hbefore j (Nat.lt_of_succ_lt_succ hj) b' hb'
      · rintro ⟨i, b, hb, hfails, hbefore⟩
        cases i with
        | zero =>
          cases hb
          cases ha.symm.trans hfails
        | succ i =>
          exact ⟨i, b, hb, hfails, fun j hj b' hb' => hbefore (j + 1) (Nat.succ_lt_succ hj) b' hb'⟩

theorem Pool.orCompileError_eq_ok_iff {x : Except ShapeError α} {a : α} :
    Pool.orCompileError x = .ok a ↔ x = .ok a := by
  cases x <;> simp [orCompileError]

theorem ReadyM.bind_eq_ok_iff {x : ReadyM α} {f : α → ReadyM β} {n : Nat} {r : β × Nat} :
    (x >>= f) n = .ok r ↔ ∃ a n', x n = .ok (a, n') ∧ f a n' = .ok r := by
  change (x n >>= fun p => f p.1 p.2) = .ok r ↔ _
  rw [Except.bind_eq_ok_iff]
  exact Prod.exists

theorem ReadyM.bind_of_error {x : ReadyM α} {f : α → ReadyM β} {n : Nat} {e : CompileError}
    (h : x n = .error e) : (x >>= f) n = .error e := by
  change (x n >>= fun p => f p.1 p.2) = .error e
  rw [h]
  rfl

theorem ReadyM.pure_eq_ok_iff {a : α} {n : Nat} {r : α × Nat} :
    (pure a : ReadyM α) n = .ok r ↔ r = (a, n) := by
  change Except.ok (a, n) = Except.ok r ↔ _
  rw [Except.ok.injEq, eq_comm]

theorem ReadyM.ofPool_eq_ok_iff {x : Except ShapeError α} {n : Nat} {r : α × Nat} :
    ReadyM.ofPool x n = .ok r ↔ ∃ a, x = .ok a ∧ r = (a, n) := by
  constructor
  · intro h
    cases x with
    | error e => cases h
    | ok a =>
      cases h
      exact ⟨a, rfl, rfl⟩
  · rintro ⟨a, rfl, rfl⟩
    rfl

end

/-! ## Outcomes with a state -/

section

variable {ε σ α β : Type}

theorem EStateM.bind_eq_ok_iff {x : EStateM ε σ α} {f : α → EStateM ε σ β} {s s' : σ} {b : β} :
    (x >>= f) s = .ok b s' ↔ ∃ a s₁, x s = .ok a s₁ ∧ f a s₁ = .ok b s' := by
  constructor
  · intro h
    cases hx : x s with
    | ok a s₁ => exact ⟨a, s₁, rfl, (bind_of_eq_ok hx).symm.trans h⟩
    | error e s₁ => cases (bind_of_eq_error hx).symm.trans h
  · rintro ⟨a, s₁, hx, hf⟩
    exact (bind_of_eq_ok hx).trans hf

/-- What holds of the value or the error that `x` ends with from `s`, and of the state then. -/
def Ensures (x : EStateM ε σ α) (s : σ) (ok : α → σ → Prop) (error : ε → σ → Prop) : Prop :=
  match x s with
  | .ok a s' => ok a s'
  | .error e s' => error e s'

/-- The state that `x` leaves behind. -/
def After (x : EStateM ε σ α) (s : σ) : σ :=
  match x s with
  | .ok _ s' => s'
  | .error _ s' => s'

theorem after_get_bind (f : σ → EStateM ε σ α) (s : σ) : After (get >>= f) s = After (f s) s :=
  rfl

/-- What holds of the state after the first part, and then of the state after the second. -/
theorem after_bind {p : σ → Prop} {x : EStateM ε σ α} {f : α → EStateM ε σ β} {s : σ}
    (hx : p (After x s)) (hf : ∀ a s', x s = .ok a s' → p s' → p (After (f a) s')) :
    p (After (x >>= f) s) := by
  unfold After at hx
  cases h : x s with
  | error e s' =>
    rw [h] at hx
    rwa [After, bind_of_eq_error h]
  | ok a s' =>
    rw [h] at hx
    rw [After, bind_of_eq_ok h]
    exact hf a s' h hx

namespace Ensures

variable {x : EStateM ε σ α} {s : σ} {ok ok' : α → σ → Prop} {error error' : ε → σ → Prop}

theorem pure {a : α} (h : ok a s) : Ensures (Pure.pure a : EStateM ε σ α) s ok error :=
  h

theorem throw {e : ε} (h : error e s) :
    Ensures (MonadExcept.throw e : EStateM ε σ α) s ok error :=
  h

theorem of_ok {a : α} {s' : σ} (hx : x s = .ok a s') (h : ok a s') : Ensures x s ok error := by
  unfold Ensures
  rwa [hx]

/-- What is ensured of the value that there is. -/
theorem of_run {a : α} {s' : σ} (h : Ensures x s ok error) (hx : x s = .ok a s') : ok a s' := by
  unfold Ensures at h
  rwa [hx] at h

theorem of_eq {y : EStateM ε σ α} {s' : σ} (hxy : x s = y s') (h : Ensures y s' ok error) :
    Ensures x s ok error := by
  unfold Ensures at h ⊢
  rwa [hxy]

theorem bind {f : α → EStateM ε σ β} {ok : β → σ → Prop}
    (h : Ensures x s (fun a s' => Ensures (f a) s' ok error) error) :
    Ensures (x >>= f) s ok error := by
  change match EStateM.bind x f s with
    | .ok a s' => ok a s'
    | .error e s' => error e s'
  unfold Ensures at h
  unfold EStateM.bind
  cases hx : x s with
  | ok a s' => rw [hx] at h; exact h
  | error e s' => rw [hx] at h; exact h

theorem mono (h : Ensures x s ok error) (hok : ∀ a s', ok a s' → ok' a s')
    (herror : ∀ e s', error e s' → error' e s') : Ensures x s ok' error' := by
  unfold Ensures at h ⊢
  cases hx : x s with
  | ok a s' => rw [hx] at h; exact hok a s' h
  | error e s' => rw [hx] at h; exact herror e s' h

theorem and (h : Ensures x s ok error) (h' : Ensures x s ok' error') :
    Ensures x s (fun a s' => ok a s' ∧ ok' a s') fun e s' => error e s' ∧ error' e s' := by
  unfold Ensures at h h' ⊢
  cases hx : x s with
  | ok a s' => rw [hx] at h h'; exact ⟨h, h'⟩
  | error e s' => rw [hx] at h h'; exact ⟨h, h'⟩

/-- Nothing is asked of the outcome. -/
theorem trivial (x : EStateM ε σ α) (s : σ) :
    Ensures x s (fun _ _ => True) fun _ _ => True := by
  unfold Ensures
  split <;> exact True.intro

/-- The outcome is what it is. -/
theorem outcome (x : EStateM ε σ α) (s : σ) :
    Ensures x s (fun a s' => x s = .ok a s') fun e s' => x s = .error e s' := by
  unfold Ensures
  cases hx : x s <;> exact rfl

/-- What is ensured either way holds of the state left behind. -/
theorem after {p : σ → Prop} (h : Ensures x s (fun _ => p) fun _ => p) : p (After x s) := by
  unfold Ensures at h
  unfold After
  cases hx : x s with
  | ok a s' => rw [hx] at h; exact h
  | error e s' => rw [hx] at h; exact h

end Ensures

/-- `x` ends with a value from `s`. What holds of the value, and of the state then. -/
def Succeeds (x : EStateM ε σ α) (s : σ) (ok : α → σ → Prop) : Prop :=
  ∃ a s', x s = .ok a s' ∧ ok a s'

namespace Succeeds

variable {x : EStateM ε σ α} {s : σ} {ok ok' : α → σ → Prop}

theorem pure {a : α} (h : ok a s) : Succeeds (Pure.pure a : EStateM ε σ α) s ok :=
  ⟨a, s, rfl, h⟩

theorem of_eq {y : EStateM ε σ α} {s' : σ} (hxy : x s = y s') (h : Succeeds y s' ok) :
    Succeeds x s ok := by
  unfold Succeeds
  rwa [hxy]

theorem bind {f : α → EStateM ε σ β} {ok : β → σ → Prop}
    (h : Succeeds x s fun a s' => Succeeds (f a) s' ok) : Succeeds (x >>= f) s ok := by
  obtain ⟨a, s', hx, b, s'', hf, hb⟩ := h
  refine ⟨b, s'', ?_, hb⟩
  change EStateM.bind x f s = _
  unfold EStateM.bind
  rw [hx]
  exact hf

theorem bind_ok {f : α → EStateM ε σ β} {ok : β → σ → Prop} {a : α} {s' : σ} (hx : x s = .ok a s')
    (h : Succeeds (f a) s' ok) : Succeeds (x >>= f) s ok :=
  bind ⟨a, s', hx, h⟩

theorem map {f : α → β} {ok : β → σ → Prop} (h : Succeeds x s fun a s' => ok (f a) s') :
    Succeeds (f <$> x) s ok := by
  rw [map_eq_pure_bind]
  obtain ⟨a, s', hx, ha⟩ := h
  exact bind_ok hx (pure ha)

theorem mono (h : Succeeds x s ok) (hok : ∀ a s', ok a s' → ok' a s') : Succeeds x s ok' := by
  obtain ⟨a, s', hx, ha⟩ := h
  exact ⟨a, s', hx, hok a s' ha⟩

/-- What is ensured of a computation that ends with a value. -/
theorem of_ensures {error : ε → σ → Prop} (h : Ensures x s ok error)
    (hx : ∃ a s', x s = .ok a s') : Succeeds x s ok := by
  obtain ⟨a, s', hx⟩ := hx
  unfold Ensures at h
  rw [hx] at h
  exact ⟨a, s', hx, h⟩

end Succeeds

/-- From some number on, the computations all end from `s` with one value and one state. What holds
of the two. -/
def Eventually (x : Nat → EStateM ε σ α) (s : σ) (ok : α → σ → Prop) : Prop :=
  ∃ n a s', (∀ m, n ≤ m → x m s = .ok a s') ∧ ok a s'

namespace Eventually

variable {x : Nat → EStateM ε σ α} {s : σ} {ok ok' : α → σ → Prop}

theorem of_ok {a : α} {s' : σ} (hx : ∀ n, x n s = .ok a s') (h : ok a s') : Eventually x s ok :=
  ⟨0, a, s', fun n _ => hx n, h⟩

theorem of_eq {y : Nat → EStateM ε σ α} {s' : σ} (hxy : ∀ n, x n s = y n s')
    (h : Eventually y s' ok) : Eventually x s ok := by
  obtain ⟨n, a, s'', hy, ha⟩ := h
  exact ⟨n, a, s'', fun m hm => (hxy m).trans (hy m hm), ha⟩

theorem of_succeeds {x : EStateM ε σ α} (h : Succeeds x s ok) : Eventually (fun _ => x) s ok := by
  obtain ⟨a, s', hx, ha⟩ := h
  exact of_ok (fun _ => hx) ha

theorem bind {f : Nat → α → EStateM ε σ β} {ok : β → σ → Prop}
    (h : Eventually x s fun a s' => Eventually (fun n => f n a) s' ok) :
    Eventually (fun n => x n >>= f n) s ok := by
  obtain ⟨n, a, s', hx, n', b, s'', hf, hb⟩ := h
  refine ⟨max n n', b, s'', fun m hm => ?_, hb⟩
  change EStateM.bind (x m) (f m) s = _
  unfold EStateM.bind
  rw [hx m (Nat.le_trans (Nat.le_max_left n n') hm)]
  exact hf m (Nat.le_trans (Nat.le_max_right n n') hm)

theorem bind_ok {x : EStateM ε σ α} {f : Nat → α → EStateM ε σ β} {ok : β → σ → Prop} {a : α}
    {s' : σ} (hx : x s = .ok a s') (h : Eventually (fun n => f n a) s' ok) :
    Eventually (fun n => x >>= f n) s ok :=
  bind (of_succeeds ⟨a, s', hx, h⟩)

theorem map {f : α → β} {ok : β → σ → Prop} (h : Eventually x s fun a s' => ok (f a) s') :
    Eventually (fun n => f <$> x n) s ok := by
  simp only [map_eq_pure_bind]
  obtain ⟨n, a, s', hx, ha⟩ := h
  exact bind ⟨n, a, s', hx, of_succeeds (.pure ha)⟩

theorem mono (h : Eventually x s ok) (hok : ∀ a s', ok a s' → ok' a s') : Eventually x s ok' := by
  obtain ⟨n, a, s', hx, ha⟩ := h
  exact ⟨n, a, s', hx, hok a s' ha⟩

/-- One number more changes nothing. -/
theorem of_succ (h : Eventually (fun n => x (n + 1)) s ok) : Eventually x s ok := by
  obtain ⟨n, a, s', hx, ha⟩ := h
  refine ⟨n + 1, a, s', fun m hm => ?_, ha⟩
  cases m with
  | zero => omega
  | succ m => exact hx m (Nat.le_of_succ_le_succ hm)

end Eventually

end

end Reshape
