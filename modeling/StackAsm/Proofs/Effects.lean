import Mathlib.Data.List.Forall2
import Mathlib.Logic.Relation

/-!
# Steps with a state

The passes of the assembler change a state and may fail, and what they changed before a failure
remains. Of the state only a part matters here, which `view` picks out. A pass moves along a
relation if the part after it, failed or not, is reached by finitely many related changes; so what
every change keeps is kept by the pass. A reader has no state after a failure; what matters there is
which steps a success consists of.
-/

namespace StackAsm

variable {ε σ τ α β : Type} {view : σ → τ} {R : τ → τ → Prop} {x : EStateM ε σ α} {s : σ}

theorem except_bind_eq_ok {x : Except ε α} {f : α → Except ε β} {b : β} :
    x >>= f = .ok b ↔ ∃ a, x = .ok a ∧ f a = .ok b := by
  cases x with
  | error e => simp [Bind.bind, Except.bind]
  | ok a => simp [Bind.bind, Except.bind]

theorem except_map_eq_ok {x : Except ε α} {f : α → β} {b : β} :
    x.map f = .ok b ↔ ∃ a, x = .ok a ∧ f a = b := by
  cases x with
  | error e => simp [Except.map]
  | ok a => simp [Except.map]

theorem except_mapError_eq_ok {ε' : Type} {x : Except ε α} {f : ε → ε'} {a : α} :
    x.mapError f = .ok a ↔ x = .ok a := by
  cases x <;> simp [Except.mapError]

/-- A list is gone through without a failure exactly if every element is. -/
theorem mapM_eq_ok {f : α → Except ε β} {xs : List α} {ys : List β} :
    xs.mapM f = .ok ys ↔ List.Forall₂ (fun x y => f x = .ok y) xs ys := by
  induction xs generalizing ys with
  | nil => simp [Pure.pure, Except.pure, eq_comm]
  | cons x xs ih =>
    rw [List.mapM_cons, except_bind_eq_ok, List.forall₂_cons_left_iff]
    constructor
    · rintro ⟨y, hy, h⟩
      obtain ⟨zs, hzs, h⟩ := except_bind_eq_ok.mp h
      cases h
      exact ⟨y, zs, hy, ih.mp hzs, rfl⟩
    · rintro ⟨y, zs, hy, hzs, rfl⟩
      exact ⟨y, hy, except_bind_eq_ok.mpr ⟨zs, ih.mpr hzs, rfl⟩⟩

theorem exists_mapM_eq_ok {f : α → Except ε β} {xs : List α}
    (h : ∀ x ∈ xs, ∃ y, f x = .ok y) : ∃ ys, xs.mapM f = .ok ys := by
  induction xs with
  | nil => exact ⟨[], rfl⟩
  | cons x xs ih =>
    obtain ⟨y, hy⟩ := h x List.mem_cons_self
    obtain ⟨ys, hys⟩ := ih fun z hz => h z (List.mem_cons_of_mem _ hz)
    exact ⟨y :: ys, mapM_eq_ok.mpr (.cons hy (mapM_eq_ok.mp hys))⟩

/-- What corresponds to a list element by element comes from its elements. -/
theorem exists_of_forall₂ {R : α → β → Prop} {xs : List α} {ys : List β} {y : β}
    (h : List.Forall₂ R xs ys) (hy : y ∈ ys) : ∃ x ∈ xs, R x y := by
  induction h with
  | nil => cases hy
  | cons hxy _ ih =>
    rcases List.mem_cons.mp hy with rfl | hmem
    · exact ⟨_, List.mem_cons_self, hxy⟩
    · obtain ⟨x, hx, hR⟩ := ih hmem
      exact ⟨x, List.mem_cons_of_mem _ hx, hR⟩

theorem estate_bind_eq_ok {f : α → EStateM ε σ β} {b : β} {s' : σ} :
    (x >>= f) s = .ok b s' ↔ ∃ a t, x s = .ok a t ∧ f a t = .ok b s' := by
  cases hx : x s with
  | error e t => simp [Bind.bind, EStateM.bind, hx]
  | ok a t => simp [Bind.bind, EStateM.bind, hx]

theorem estate_bind_of_ok {f : α → EStateM ε σ β} {a : α} {t : σ} (h : x s = .ok a t) :
    (x >>= f) s = f a t := by
  simp only [Bind.bind, EStateM.bind, h]

section

variable {y : StateT σ (Except ε) α} {a : α} {s' : σ}

theorem stateT_bind_eq_ok {f : α → StateT σ (Except ε) β} {b : β} :
    (y >>= f) s = .ok (b, s') ↔ ∃ a t, y s = .ok (a, t) ∧ f a t = .ok (b, s') := by
  show (y s >>= fun p => f p.1 p.2) = .ok (b, s') ↔ _
  rw [except_bind_eq_ok]
  exact Prod.exists

theorem stateT_bind_of_ok {f : α → StateT σ (Except ε) β} (h : y s = .ok (a, s')) :
    (y >>= f) s = f a s' := by
  show (y s >>= fun p => f p.1 p.2) = _
  rw [h]
  rfl

theorem stateT_map_eq_ok {f : α → β} {b : β} :
    (f <$> y) s = .ok (b, s') ↔ ∃ a, y s = .ok (a, s') ∧ f a = b := by
  show (y s >>= fun p => .ok (f p.1, p.2)) = _ ↔ _
  rw [except_bind_eq_ok, Prod.exists]
  simp

/-- A check in front of what follows has to be passed. -/
theorem stateT_guard_eq_ok {c : Prop} [Decidable c] {e : ε} {k : Unit → StateT σ (Except ε) α} :
    (if c then throw e >>= k else k ()) s = .ok (a, s') ↔ ¬c ∧ k () s = .ok (a, s') := by
  by_cases h : c
  · rw [if_pos h, stateT_bind_eq_ok]
    constructor
    · rintro ⟨_, _, hthrow, -⟩
      cases hthrow
    · rintro ⟨hc, -⟩
      exact absurd h hc
  · rw [if_neg h, and_iff_right h]

theorem stateT_ite_eq_ok {c : Prop} [Decidable c] {e : ε} :
    (if c then y else throw e) s = .ok (a, s') ↔ c ∧ y s = .ok (a, s') := by
  by_cases h : c
  · rw [if_pos h, and_iff_right h]
  · rw [if_neg h]
    constructor
    · intro hthrow
      cases hthrow
    · rintro ⟨hc, -⟩
      exact absurd hc h

end

/-- The state after a step, whether or not it failed. -/
def stateAfter : EStateM.Result ε σ α → σ
  | .ok _ s => s
  | .error _ s => s

/-- From the state `s`, what is in view gets nowhere but along the changes of `R`. -/
def MovesFrom (view : σ → τ) (R : τ → τ → Prop) (s : σ) (x : EStateM ε σ α) : Prop :=
  Relation.ReflTransGen R (view s) (view (stateAfter (x s)))

theorem MovesFrom.pure (a : α) : MovesFrom view R s (Pure.pure a : EStateM ε σ α) := .refl

theorem MovesFrom.throw (e : ε) : MovesFrom view R s (throw e : EStateM ε σ α) := .refl

theorem MovesFrom.throw_bind (e : ε) (f : α → EStateM ε σ β) :
    MovesFrom view R s (MonadExcept.throw e >>= f) := .refl

theorem MovesFrom.modify {g : σ → σ} (h : R (view s) (view (g s))) :
    MovesFrom view R s (modify g : EStateM ε σ PUnit) := .single h

/-- A change out of view. -/
theorem MovesFrom.modify_hidden {g : σ → σ} (h : view (g s) = view s) :
    MovesFrom view R s (MonadStateOf.modifyGet fun s => (PUnit.unit, g s) : EStateM ε σ PUnit) := by
  show Relation.ReflTransGen R (view s) (view (g s))
  rw [h]

/-- One step after the other: the second is looked at only where the first has succeeded. -/
theorem MovesFrom.bind {f : α → EStateM ε σ β} (hx : MovesFrom view R s x)
    (hf : ∀ a s', x s = .ok a s' → MovesFrom view R s' (f a)) : MovesFrom view R s (x >>= f) := by
  unfold MovesFrom at hx ⊢
  cases hs : x s with
  | error e s' =>
    have hbind : (x >>= f) s = .error e s' := by simp only [Bind.bind, EStateM.bind, hs]
    rw [hs] at hx
    rwa [hbind]
  | ok a s' =>
    have hbind : (x >>= f) s = f a s' := by simp only [Bind.bind, EStateM.bind, hs]
    rw [hs] at hx
    rw [hbind]
    exact hx.trans (hf a s' hs)

theorem MovesFrom.get_bind {f : σ → EStateM ε σ β} (h : MovesFrom view R s (f s)) :
    MovesFrom view R s (get >>= f) := h

/-- What every change keeps is kept along changes. -/
theorem keeps_of_reflTransGen {P : τ → Prop} {t t' : τ} (h : Relation.ReflTransGen R t t')
    (hR : ∀ t t', R t t' → P t → P t') (ht : P t) : P t' := by
  induction h with
  | refl => exact ht
  | tail _ hstep ih => exact hR _ _ hstep ih

/-! ### Results and failures -/

/-- A result has `P`, and an error has `E`. -/
def Lands (P : α → Prop) (E : ε → Prop) : Except ε α → Prop
  | .ok a => P a
  | .error e => E e

section

variable {P : α → Prop} {Q : β → Prop} {E : ε → Prop}

theorem Lands.bind {x : Except ε α} {f : α → Except ε β} (hx : Lands P E x)
    (hf : ∀ a, P a → Lands Q E (f a)) : Lands Q E (x >>= f) := by
  cases x with
  | error e => exact hx
  | ok a => exact hf a hx

/-- Of the result it is also known that it is the result. -/
theorem Lands.and_eq_ok {x : Except ε α} (h : Lands P E x) :
    Lands (fun a => P a ∧ x = .ok a) E x := by
  cases x with
  | error e => exact h
  | ok a => exact ⟨h, rfl⟩

theorem Lands.map {x : Except ε α} {f : α → β} (hx : Lands P E x) (hf : ∀ a, P a → Q (f a)) :
    Lands Q E (x.map f) := by
  cases x with
  | error e => exact hx
  | ok a => exact hf a hx

/-- Of an error less may be said. -/
theorem Lands.imp_error {E' : ε → Prop} {x : Except ε α} (hx : Lands P E x)
    (hE : ∀ e, E e → E' e) : Lands P E' x := by
  cases x with
  | error e => exact hE e hx
  | ok a => exact hx

theorem Lands.mapError {ε' : Type} {E' : ε' → Prop} {x : Except ε α} {f : ε → ε'}
    (hx : Lands P E x) (hf : ∀ e, E e → E' (f e)) : Lands P E' (x.mapError f) := by
  cases x with
  | error e => exact hf e hx
  | ok a => exact hx

theorem Lands.mapM {f : α → Except ε β} {xs : List α} (h : ∀ x ∈ xs, Lands Q E (f x)) :
    Lands (∀ y ∈ ·, Q y) E (xs.mapM f) := by
  induction xs with
  | nil => exact fun y hy => absurd hy List.not_mem_nil
  | cons x xs ih =>
    obtain ⟨hx, hxs⟩ := List.forall_mem_cons.mp h
    rw [List.mapM_cons]
    refine hx.bind fun y hy => (ih hxs).bind fun ys hys => ?_
    exact List.forall_mem_cons.mpr ⟨hy, hys⟩

/-- There is a result exactly if `A` holds. The result has `P`, and an error has `E`. -/
def Accepts (A : Prop) (P : α → Prop) (E : ε → Prop) : Except ε α → Prop
  | .ok a => A ∧ P a
  | .error e => ¬A ∧ E e

theorem Accepts.congr {A B : Prop} {x : Except ε α} (h : A ↔ B) (hx : Accepts A P E x) :
    Accepts B P E x := by
  cases x with
  | error e => exact ⟨h.not.mp hx.1, hx.2⟩
  | ok a => exact ⟨h.mp hx.1, hx.2⟩

theorem Accepts.ite {A c : Prop} [Decidable c] {a : α} {e : ε} (h : c ↔ A) (ha : P a) (he : E e) :
    Accepts A P E (if c then .ok a else .error e) := by
  by_cases hc : c
  · rw [if_pos hc]
    exact ⟨h.mp hc, ha⟩
  · rw [if_neg hc]
    exact ⟨h.not.mp hc, he⟩

theorem Accepts.of_eq_ok {A : Prop} {x : Except ε α} {a : α} (hx : Accepts A P E x)
    (h : x = .ok a) : A ∧ P a := by
  rw [h] at hx
  exact hx

/-- Where one step follows another, both conditions have to hold. -/
theorem Accepts.bind {A B : Prop} {x : Except ε α} {f : α → Except ε β} (hx : Accepts A P E x)
    (hf : ∀ a, P a → Accepts B Q E (f a)) : Accepts (A ∧ B) Q E (x >>= f) := by
  cases x with
  | error e => exact ⟨fun h => hx.1 h.1, hx.2⟩
  | ok a =>
    obtain ⟨hA, hP⟩ := hx
    exact (hf a hP).congr (and_iff_right hA).symm

theorem Accepts.bind_ok {A : Prop} {x : Except ε α} {f : α → β} (hx : Accepts A P E x)
    (hf : ∀ a, P a → Q (f a)) : Accepts A Q E (x >>= fun a => .ok (f a)) := by
  cases x with
  | error e => exact hx
  | ok a => exact ⟨hx.1, hf a hx.2⟩

theorem Accepts.mapM {A : α → Prop} {f : α → Except ε β} {g : α → β}
    (h : ∀ a, Accepts (A a) (· = g a) E (f a)) (xs : List α) :
    Accepts (∀ a ∈ xs, A a) (· = xs.map g) E (xs.mapM f) := by
  induction xs with
  | nil => exact ⟨by simp, rfl⟩
  | cons a xs ih =>
    rw [List.mapM_cons]
    refine Accepts.congr List.forall_mem_cons.symm ?_
    refine (h a).bind fun b hb => ih.bind_ok fun bs hbs => ?_
    rw [hb, hbs, List.map_cons]

/-- From every state with `I` the step leads to a result with `P` and to a state with `I`, or it
fails with an error that has `E`. -/
def Upholds (I : σ → Prop) (P : α → Prop) (E : ε → Prop) (x : EStateM ε σ α) : Prop :=
  ∀ s, I s → match x s with
    | .ok a s' => P a ∧ I s'
    | .error e _ => E e

variable {I : σ → Prop}

theorem Upholds.pure {a : α} (h : P a) : Upholds I P E (Pure.pure a) := fun _ hs => ⟨h, hs⟩

theorem Upholds.throw {e : ε} (h : E e) : Upholds I P E (throw e) := fun _ _ => h

theorem Upholds.bind {f : α → EStateM ε σ β} (hx : Upholds I P E x)
    (hf : ∀ a, P a → Upholds I Q E (f a)) : Upholds I Q E (x >>= f) := by
  intro s hs
  have hfirst := hx s hs
  cases heq : x s with
  | error e s' =>
    rw [heq] at hfirst
    simpa only [Bind.bind, EStateM.bind, heq] using hfirst
  | ok a s' =>
    rw [heq] at hfirst
    rw [estate_bind_of_ok heq]
    exact hf a hfirst.1 s' hfirst.2

theorem Upholds.get_bind {f : σ → EStateM ε σ β} (hf : ∀ s, I s → Upholds I Q E (f s)) :
    Upholds I Q E (get >>= f) := fun s hs => hf s hs s hs

theorem Upholds.modify {g : σ → σ} (h : ∀ s, I s → I (g s)) :
    Upholds I (fun _ => True) E (modify g : EStateM ε σ PUnit) := fun s hs => ⟨trivial, h s hs⟩

/-- A check in front of what follows. -/
theorem Upholds.guard {c : Prop} [Decidable c] {e : ε} {k : PUnit → EStateM ε σ β}
    (he : c → E e) (hk : Upholds I Q E (k ())) :
    Upholds I Q E (if c then MonadExcept.throw e >>= k else k ()) := by
  by_cases h : c
  · rw [if_pos h]
    exact fun _ _ => he h
  · rw [if_neg h]
    exact hk

end

end StackAsm
