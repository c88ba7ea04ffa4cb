import Mathlib.Tactic.Lemma

/-!
# Computations with a state and early exits

What holds at the end of a computation that may leave early with an error, and keeps the state that
it has reached then.
-/

namespace Hoare

variable {ε σ β γ : Type} {P R : σ → Prop} {Q : β → σ → Prop} {E E' : ε → σ → Prop}
  {m : EStateM ε σ β}

/-! ### What the operations do -/

@[simp]
lemma bind_run (m : EStateM ε σ γ) (f : γ → EStateM ε σ β) (s : σ) : (m >>= f) s = match m s with
      | .ok c s' => f c s'
      | .error e s' => .error e s' := rfl

@[simp]
lemma pure_run (b : β) (s : σ) : (pure b : EStateM ε σ β) s = .ok b s := rfl

@[simp]
lemma get_run (s : σ) : (get : EStateM ε σ σ) s = .ok s s := rfl

@[simp]
lemma modify_run (f : σ → σ) (s : σ) : (modify f : EStateM ε σ PUnit) s = .ok ⟨⟩ (f s) := rfl

@[simp]
lemma throw_run (e : ε) (s : σ) : (throw e : EStateM ε σ β) s = .error e s := rfl

/-! ### Conditions -/

/-- Started in a state with `P`, the computation ends with `Q` or leaves with `E`. -/
def Meets (P : σ → Prop) (m : EStateM ε σ β) (Q : β → σ → Prop) (E : ε → σ → Prop) : Prop :=
  ∀ s, P s → match m s with
    | .ok b s' => Q b s'
    | .error e s' => E e s'

lemma Meets.pure {b : β} (h : ∀ s, P s → Q b s) : Meets P (Pure.pure b) Q E := h

lemma Meets.bind {m : EStateM ε σ γ} {f : γ → EStateM ε σ β} {R : γ → σ → Prop}
    (hm : Meets P m R E) (hf : ∀ c, Meets (R c) (f c) Q E) : Meets P (m >>= f) Q E := by
  intro s hs
  have hmid := hm s hs
  rw [bind_run]
  cases hms : m s with
  | ok c s' =>
    rw [hms] at hmid
    exact hf c s' hmid
  | error e s' =>
    rw [hms] at hmid
    exact hmid

lemma Meets.modify {f : σ → σ} (h : ∀ s, P s → R (f s)) :
    Meets P (modify f : EStateM ε σ PUnit) (fun _ => R) E := h

lemma Meets.throw {e : ε} (h : ∀ s, P s → E e s) : Meets P (throw e : EStateM ε σ β) Q E := h

/-- What is known of the result may not depend on the state. -/
lemma Meets.bind_fact {m : EStateM ε σ γ} {f : γ → EStateM ε σ β} {p : γ → Prop} {R : γ → σ → Prop}
    (hm : Meets P m (fun c s => p c ∧ R c s) E) (hf : ∀ c, p c → Meets (R c) (f c) Q E) :
    Meets P (m >>= f) Q E :=
  hm.bind fun c s hs => hf c hs.1 s hs.2

/-- The condition at the start may be stronger. -/
lemma Meets.imp_pre {P' : σ → Prop} (h : Meets P m Q E) (hP : ∀ s, P' s → P s) : Meets P' m Q E :=
  fun s hs => h s (hP s hs)

/-- The conditions at the end may be weaker. -/
lemma Meets.imp {Q' : β → σ → Prop} (h : Meets P m Q E)
    (hQ : ∀ b s, Q b s → Q' b s) (hE : ∀ e s, E e s → E' e s) : Meets P m Q' E' := by
  intro s hs
  have hend := h s hs
  cases hms : m s with
  | ok b s' =>
    rw [hms] at hend
    exact hQ b s' hend
  | error e s' =>
    rw [hms] at hend
    exact hE e s' hend

lemma Meets.imp_error (h : Meets P m Q E) (hE : ∀ e s, E e s → E' e s) : Meets P m Q E' :=
  h.imp (fun _ _ hs => hs) hE

end Hoare
