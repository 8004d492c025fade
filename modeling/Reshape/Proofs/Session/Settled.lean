import Reshape.Proofs.Program.Emitted
import Reshape.Proofs.Session.Coherence

/-!
# Runs that settle

A run settles (`RunM.Settles`) if it comes to an end of itself : from some depth on it always ends
the same way, with a value or with an error of the conversion. It does not settle where each depth
is too little, or where the pool is followed around in a circle ; in a pool without circles, to look
for a routine settles, whether it is found or not (`Session.resolve_proper`).
-/

namespace Reshape

/-- The conversion has failed, for a reason other than want of depth or a circle of shapes. -/
def Stop.Proper : Stop → Prop
  | .tooDeep | .failed (.compile (.shape (.endless _))) => False
  | .failed _ => True

section

variable {α β : Type}

/-- From some depth on, the computation ends from the session in one way, and properly. -/
def RunM.Settles (x : Nat → RunM α) (s : Session) : Prop :=
  ∃ n, (∃ a s', ∀ m, n ≤ m → x m s = .ok a s') ∨
    ∃ stop s', stop.Proper ∧ ∀ m, n ≤ m → x m s = .error stop s'

namespace RunM.Settles

variable {x y : Nat → RunM α} {s s' : Session}

theorem of_const {x : RunM α} (h : Ensures x s (fun _ _ => True) fun stop _ => stop.Proper) :
    RunM.Settles (fun _ => x) s := by
  unfold Ensures at h
  cases hx : x s with
  | ok a s' => exact ⟨0, Or.inl ⟨a, s', fun _ _ => hx⟩⟩
  | error stop s' =>
    rw [hx] at h
    exact ⟨0, Or.inr ⟨stop, s', h, fun _ _ => hx⟩⟩

theorem pure (a : α) : RunM.Settles (fun _ => Pure.pure a) s :=
  of_const trivial

theorem throw {stop : Stop} (h : stop.Proper) :
    RunM.Settles (fun _ => (MonadExcept.throw stop : RunM α)) s :=
  of_const h

theorem of_eq (hxy : ∀ n, x n s = y n s') (h : RunM.Settles y s') : RunM.Settles x s := by
  unfold RunM.Settles at h ⊢
  simp only [hxy]
  exact h

/-- The second part settles from whatever session the first part leaves behind. -/
theorem bind {f : Nat → α → RunM β} {p : α → Session → Prop} (hx : RunM.Settles x s)
    (hp : ∀ n, Ensures (x n) s p fun _ _ => True)
    (hf : ∀ a s', p a s' → RunM.Settles (fun n => f n a) s') :
    RunM.Settles (fun n => x n >>= f n) s := by
  obtain ⟨n, ⟨a, s', hx⟩ | ⟨stop, s', hproper, hx⟩⟩ := hx
  · have hp : p a s' := (hp n).of_run (hx n (Nat.le_refl n))
    have hbind (m : Nat) (hm : n ≤ m) : (x m >>= f m) s = f m a s' := bind_of_eq_ok (hx m hm)
    obtain ⟨n', ⟨b, s'', hf⟩ | ⟨stop, s'', hproper, hf⟩⟩ := hf a s' hp
    all_goals refine ⟨max n n', ?_⟩
    · refine Or.inl ⟨b, s'', fun m hm => (hbind m (Nat.le_trans (Nat.le_max_left ..) hm)).trans ?_⟩
      exact hf m (Nat.le_trans (Nat.le_max_right ..) hm)
    · refine Or.inr ⟨stop, s'', hproper, fun m hm => ?_⟩
      exact (hbind m (Nat.le_trans (Nat.le_max_left ..) hm)).trans
        (hf m (Nat.le_trans (Nat.le_max_right ..) hm))
  · exact ⟨n, Or.inr ⟨stop, s', hproper, fun m hm => bind_of_eq_error (hx m hm)⟩⟩

theorem map (f : α → β) (h : RunM.Settles x s) : RunM.Settles (fun n => f <$> x n) s := by
  simp only [map_eq_pure_bind]
  exact h.bind (p := fun _ _ => True) (fun n => .trivial (x n) s) fun a _ _ => pure (f a)

/-- What settles within a routine settles with the routine around it. -/
theorem of_succ (h : RunM.Settles (fun n => x (n + 1)) s) : RunM.Settles x s := by
  obtain ⟨n, h⟩ := h
  refine ⟨n + 1, h.imp ?_ ?_⟩
  · rintro ⟨a, s', hx⟩
    refine ⟨a, s', fun m hm => ?_⟩
    obtain ⟨m, rfl⟩ : ∃ k, m = k + 1 := ⟨m - 1, by omega⟩
    exact hx m (Nat.le_of_succ_le_succ hm)
  · rintro ⟨stop, s', hproper, hx⟩
    refine ⟨stop, s', hproper, fun m hm => ?_⟩
    obtain ⟨m, rfl⟩ : ∃ k, m = k + 1 := ⟨m - 1, by omega⟩
    exact hx m (Nat.le_of_succ_le_succ hm)

end RunM.Settles

end

/-! ## Looking for routines -/

section

variable {pool : Pool} (hnullable : WellFounded pool.IsNullable)
  (hcontains : WellFounded pool.Contains)

include hnullable hcontains

/-- In a pool without circles, no reason to have no body is a circle. -/
theorem CompileError.Explained.proper {e : CompileError} (h : e.Explained pool) :
    (Stop.failed (.compile e)).Proper := by
  cases e with
  | shape e =>
    cases e with
    | endless id => exact (h ⟨hnullable, hcontains⟩).elim
    | _ => trivial
  | _ => trivial

namespace Session

variable {s : Session} (hpool : s.pool = pool) (linkage : Linkage)

include hpool

theorem proper_of_refuses {source target : ShapeId} {stop : Stop}
    (h : linkage.Refuses s source target stop) : stop.Proper := by
  rcases h with ⟨-, rfl⟩ | ⟨e, rfl, he⟩
  · trivial
  · exact (Mapping.body_failsBy source target e (hpool ▸ he)).proper hnullable hcontains

theorem resolveDynamic_proper (source target : ShapeId) :
    Ensures (resolveDynamic linkage source target) s (fun _ _ => True)
      fun stop _ => stop.Proper :=
  (resolveDynamic_refuses linkage source target s).mono (fun _ _ _ => trivial)
    fun _ _ h => proper_of_refuses hnullable hcontains hpool linkage h.2

theorem resolve_proper (link : Link) :
    Ensures (resolve linkage link) s (fun _ _ => True) fun stop _ => stop.Proper :=
  (resolve_refuses linkage link s).mono (fun _ _ _ => trivial)
    fun _ _ h => proper_of_refuses hnullable hcontains hpool linkage h.2

end Session

end

end Reshape
