import Mathlib.Logic.Relation

/-!
# Programs that can fail and can be cut short

A program reads the answers of its environment from a script, works on a state and ends in one of
three ways: it returns, it raises an error, or the script runs out and it is cut short where it
stands. Quantifying over all scripts covers every failure and every point of a crash.

The second half is a program logic. A protocol is a step relation on an abstract state together
with an invariant its steps keep. `Ensures` says that a program, started in a state, only takes
steps of the protocol, however it ends, and what holds when it returns or raises.
-/

namespace Crash

variable {χ σ ε α β τ : Type} {s : σ}

/-- How a program ends, with the unread part of its script and the state it leaves. -/
inductive Outcome (χ σ ε α : Type) where
  | done (a : α) (rest : List χ) (s : σ)
  | raised (e : ε) (rest : List χ) (s : σ)
  | crashed (s : σ)

/-- The state a program leaves. -/
def Outcome.state : Outcome χ σ ε α → σ
  | .done _ _ s | .raised _ _ s | .crashed s => s

/-- The program returns a result with the property. -/
def Outcome.returns (p : α → Bool) : Outcome χ σ ε α → Bool
  | .done a _ _ => p a
  | .raised _ _ _ | .crashed _ => false

variable {o : Outcome χ σ ε α}

lemma Outcome.exists_of_returns {p : α → Bool} (h : o.returns p = true) :
    ∃ a rest s, o = .done a rest s ∧ p a = true := by
  cases o with
  | done a rest s => exact ⟨a, rest, s, rfl, h⟩
  | raised | crashed => cases h

/-- A program over the script of its environment and a state. -/
def Prog (χ σ ε α : Type) := List χ → σ → Outcome χ σ ε α

namespace Prog

instance : Monad (Prog χ σ ε) where
  pure a := fun script s => .done a script s
  bind p f := fun script s => match p script s with
    | .done a rest s' => f a rest s'
    | .raised e rest s' => .raised e rest s'
    | .crashed s' => .crashed s'

/-- A program that is run and whose result is passed on unchanged. -/
lemma bind_id (p : Prog χ σ ε α) : (do let a ← p; pure (id a)) = p := by
  funext script s
  change (match p script s with
    | .done a rest s' => .done a rest s'
    | .raised e rest s' => .raised e rest s'
    | .crashed s' => .crashed s') = p script s
  cases p script s <;> rfl

lemma bind_bind (p : Prog χ σ ε α) (f : α → Prog χ σ ε β) (g : β → Prog χ σ ε τ) :
    p >>= f >>= g = p >>= fun a => f a >>= g := by
  funext script s
  change (match (match p script s with
      | .done a rest s' => f a rest s'
      | .raised e rest s' => .raised e rest s'
      | .crashed s' => .crashed s') with
    | .done b rest s' => g b rest s'
    | .raised e rest s' => .raised e rest s'
    | .crashed s' => .crashed s') = (match p script s with
    | .done a rest s' => (f a >>= g) rest s'
    | .raised e rest s' => .raised e rest s'
    | .crashed s' => .crashed s')
  cases p script s <;> rfl

instance : LawfulMonad (Prog χ σ ε) :=
  LawfulMonad.mk' _ bind_id (fun _ _ => rfl) bind_bind

/-- The next answer of the environment; without one the program ends here. -/
def ask : Prog χ σ ε χ
  | [], s => .crashed s
  | c :: rest, s => .done c rest s

def get : Prog χ σ ε σ := fun script s => .done s script s

def modify (f : σ → σ) : Prog χ σ ε Unit := fun script s => .done () script (f s)

def throw (e : ε) : Prog χ σ ε α := fun script s => .raised e script s

/-- Run a program and hand an error it raises to the continuation. A crash cannot be caught. -/
def attempt (p : Prog χ σ ε α) : Prog χ σ ε (Except ε α) := fun script s =>
  match p script s with
  | .done a rest s' => .done (.ok a) rest s'
  | .raised e rest s' => .done (.error e) rest s'
  | .crashed s' => .crashed s'

/-- Run a program only if a condition holds. -/
def when (c : Prop) [Decidable c] (p : Prog χ σ ε Unit) : Prog χ σ ε Unit :=
  if c then p else pure ()

end Prog

/-! ### Protocols -/

/-- A step relation and an invariant that its steps keep. -/
structure Protocol (τ : Type) where
  Step : τ → τ → Prop
  Inv : τ → Prop
  inv_step : ∀ {t t' : τ}, Inv t → Step t t' → Inv t'

namespace Protocol

variable {π : Protocol τ} {t t' t'' : τ}

/-- Zero or more steps. -/
def Reach (π : Protocol τ) : τ → τ → Prop := Relation.ReflTransGen π.Step

lemma Reach.refl (t : τ) : π.Reach t t := Relation.ReflTransGen.refl

lemma Reach.of_eq (h : t = t') : π.Reach t t' := h ▸ Reach.refl t

lemma Reach.single (h : π.Step t t') : π.Reach t t' := Relation.ReflTransGen.single h

lemma Reach.trans (h : π.Reach t t') (h' : π.Reach t' t'') : π.Reach t t'' :=
  Relation.ReflTransGen.trans h h'

/-- A property that every step from a state of the invariant keeps is kept along every path. -/
lemma Reach.induct {P : τ → Prop} (hstep : ∀ {t t'}, π.Inv t → P t → π.Step t t' → P t')
    (h : π.Reach t t') (hinv : π.Inv t) (hP : P t) : π.Inv t' ∧ P t' := by
  induction h with
  | refl => exact ⟨hinv, hP⟩
  | tail _ hlast ih => exact ⟨π.inv_step ih.1 hlast, hstep ih.1 ih.2 hlast⟩

lemma Reach.inv (h : π.Reach t t') (hinv : π.Inv t) : π.Inv t' :=
  (h.induct (P := fun _ => True) (fun _ _ _ => trivial) hinv trivial).1

end Protocol

/-! ### What holds wherever a program stops -/

/-- `Q` holds when the program returns, `E` when it raises and `C` when it is cut short. -/
def Outcome.Ends (Q : α → σ → Prop) (E : ε → σ → Prop) (C : σ → Prop) : Outcome χ σ ε α → Prop
  | .done a _ s => Q a s
  | .raised e _ s => E e s
  | .crashed s => C s

variable {f : α → Prog χ σ ε β} {c : Prop} {g : Unit → Prog χ σ ε α} {a : α} {e : ε}

namespace Outcome.Ends

variable {p : Prog χ σ ε α} {Q Q' : α → σ → Prop} {E E' : ε → σ → Prop} {C C' : σ → Prop}
  {script : List χ}

lemma mono (h : o.Ends Q E C) (hQ : ∀ a s', Q a s' → Q' a s')
    (hE : ∀ e s', E e s' → E' e s') (hC : ∀ s', C s' → C' s') : o.Ends Q' E' C' := by
  cases o with
  | done a rest s' => exact hQ a s' h
  | raised e rest s' => exact hE e s' h
  | crashed s' => exact hC s' h

/-- The property of the state alone. -/
lemma state (h : o.Ends (fun _ => C) (fun _ => C) C) : C o.state := by
  cases o with
  | done | raised | crashed => exact h

/-- Sequencing along one script: the rest of the program runs on the rest of the script. -/
lemma bind {Q' : β → σ → Prop} (hp : (p script s).Ends Q E C)
    (hf : ∀ a rest s', p script s = .done a rest s' → Q a s' → (f a rest s').Ends Q' E C) :
    ((p >>= f) script s).Ends Q' E C := by
  change Outcome.Ends Q' E C (match p script s with
    | .done a rest s' => f a rest s'
    | .raised e rest s' => .raised e rest s'
    | .crashed s' => .crashed s')
  cases hr : p script s with
  | done a rest s' => rw [hr] at hp; exact hf a rest s' hr hp
  | raised | crashed => rw [hr] at hp; exact hp

/-- A caught error is a value for the continuation. -/
lemma attempt {Q' : Except ε α → σ → Prop} (hp : (p script s).Ends Q E C)
    (hok : ∀ a s', Q a s' → Q' (.ok a) s') (herr : ∀ e s', E e s' → Q' (.error e) s') :
    (p.attempt script s).Ends Q' E' C := by
  unfold Prog.attempt
  cases hr : p script s with
  | done a rest s' => rw [hr] at hp; exact hok a s' hp
  | raised e rest s' => rw [hr] at hp; exact herr e s' hp
  | crashed s' => rw [hr] at hp; exact hp

end Outcome.Ends

/-! ### What a program ensures -/

/-- The steps taken are steps of the protocol, and the end meets its postcondition. -/
def Outcome.Within (π : Protocol τ) (view : σ → τ) (s : σ) (Q : α → σ → Prop)
    (E : ε → σ → Prop) : Outcome χ σ ε α → Prop
  | .done a _ s' => π.Reach (view s) (view s') ∧ Q a s'
  | .raised e _ s' => π.Reach (view s) (view s') ∧ E e s'
  | .crashed s' => π.Reach (view s) (view s')

lemma Outcome.within_iff {π : Protocol τ} {view : σ → τ} {s : σ} {Q : α → σ → Prop}
    {E : ε → σ → Prop} : o.Within π view s Q E ↔
      o.Ends (fun a s' => π.Reach (view s) (view s') ∧ Q a s')
        (fun e s' => π.Reach (view s) (view s') ∧ E e s') fun s' => π.Reach (view s) (view s') := by
  cases o <;> exact Iff.rfl

/-- Started in `s`, the program takes only steps of the protocol; `Q` holds of what it returns
and `E` of what it raises. -/
def Ensures (π : Protocol τ) (view : σ → τ) (p : Prog χ σ ε α) (Q : α → σ → Prop)
    (E : ε → σ → Prop) (s : σ) : Prop :=
  π.Inv (view s) → ∀ script, (p script s).Within π view s Q E

namespace Ensures

open Outcome

variable {π : Protocol τ} {view : σ → τ} {p : Prog χ σ ε α} {Q Q' : α → σ → Prop}
  {E E' : ε → σ → Prop}

/-- The invariant holds wherever a program is started. -/
lemma with_inv (h : π.Inv (view s) → Ensures π view p Q E s) : Ensures π view p Q E s :=
  fun hinv => h hinv hinv

lemma pure (h : Q a s) : Ensures π view (Pure.pure a : Prog χ σ ε α) Q E s :=
  fun _ _ => ⟨.refl _, h⟩

lemma throw (h : E e s) : Ensures π view (.throw e : Prog χ σ ε α) Q E s :=
  fun _ _ => ⟨.refl _, h⟩

lemma get {Q : σ → σ → Prop} (h : Q s s) : Ensures π view (.get : Prog χ σ ε σ) Q E s :=
  fun _ _ => ⟨.refl _, h⟩

lemma modify {f : σ → σ} {Q : Unit → σ → Prop} (hstep : π.Reach (view s) (view (f s)))
    (h : Q () (f s)) : Ensures π view (.modify f : Prog χ σ ε Unit) Q E s :=
  fun _ _ => ⟨hstep, h⟩

lemma ask {Q : χ → σ → Prop} (h : ∀ c, Q c s) : Ensures π view (.ask : Prog χ σ ε χ) Q E s := by
  intro _ script
  cases script with
  | nil => exact .refl _
  | cons c rest => exact ⟨.refl _, h c⟩

lemma bind {Q' : β → σ → Prop} (hp : Ensures π view p Q E s)
    (hf : ∀ a s', Q a s' → Ensures π view (f a) Q' E s') : Ensures π view (p >>= f) Q' E s := by
  intro hinv script
  refine within_iff.2 ((within_iff.1 (hp hinv script)).bind fun a rest s' _ h => ?_)
  obtain ⟨hrch, hQ⟩ := h
  exact (within_iff.1 (hf a s' hQ (hrch.inv hinv) rest)).mono
    (fun _ _ h => ⟨hrch.trans h.1, h.2⟩) (fun _ _ h => ⟨hrch.trans h.1, h.2⟩)
    fun _ h => hrch.trans h

/-- A caught error is a value for the continuation. -/
lemma attempt {Q' : Except ε α → σ → Prop} (hp : Ensures π view p Q E s)
    (hok : ∀ a s', Q a s' → Q' (.ok a) s') (herr : ∀ e s', E e s' → Q' (.error e) s') :
    Ensures π view p.attempt Q' E' s :=
  fun hinv script => within_iff.2 ((within_iff.1 (hp hinv script)).attempt
    (fun a s' h => ⟨h.1, hok a s' h.2⟩) fun e s' h => ⟨h.1, herr e s' h.2⟩)

lemma when [Decidable c] {p : Prog χ σ ε Unit} {Q : Unit → σ → Prop}
    (htrue : c → Ensures π view p Q E s) (hfalse : ¬ c → Q () s) :
    Ensures π view (.when c p) Q E s := by
  unfold Prog.when
  split
  case isTrue h => exact htrue h
  case isFalse h => exact pure (hfalse h)

/-- Weaken both postconditions. -/
lemma mono (h : Ensures π view p Q E s) (hQ : ∀ a s', Q a s' → Q' a s')
    (hE : ∀ e s', E e s' → E' e s') : Ensures π view p Q' E' s :=
  fun hinv script => within_iff.2 ((within_iff.1 (h hinv script)).mono
    (fun a s' h => ⟨h.1, hQ a s' h.2⟩) (fun e s' h => ⟨h.1, hE e s' h.2⟩) fun _ h => h)

/-- Sequencing, with the errors of the first program weakened on the way. -/
lemma seq {Q' : β → σ → Prop} (hp : Ensures π view p Q E s) (hE : ∀ e s', E e s' → E' e s')
    (hf : ∀ a s', Q a s' → Ensures π view (f a) Q' E' s') : Ensures π view (p >>= f) Q' E' s :=
  (hp.mono (fun _ _ h => h) hE).bind hf

lemma ask_bind {f : χ → Prog χ σ ε α} (h : ∀ c, Ensures π view (f c) Q E s) :
    Ensures π view (.ask >>= f) Q E s :=
  (ask (Q := fun _ s' => s' = s) fun _ => rfl).bind fun c _ hs => hs ▸ h c

lemma get_bind {f : σ → Prog χ σ ε α} (h : Ensures π view (f s) Q E s) :
    Ensures π view (.get >>= f) Q E s :=
  (get (Q := fun a s' => a = s ∧ s' = s) ⟨rfl, rfl⟩).bind fun _ _ hs => hs.1 ▸ hs.2 ▸ h

lemma modify_bind {f : σ → σ} (hstep : π.Reach (view s) (view (f s)))
    (h : Ensures π view (g ()) Q E (f s)) : Ensures π view (.modify f >>= g) Q E s :=
  (modify (Q := fun _ s' => s' = f s) hstep rfl).bind fun _ _ hs => hs ▸ h

/-- Sequencing after a program whose errors the continuation handles. -/
lemma attempt_bind {f : Except ε α → Prog χ σ ε β} {Q' : β → σ → Prop}
    (hp : Ensures π view p Q E s) (hok : ∀ a s', Q a s' → Ensures π view (f (.ok a)) Q' E' s')
    (herr : ∀ e s', E e s' → Ensures π view (f (.error e)) Q' E' s') :
    Ensures π view (p.attempt >>= f) Q' E' s := by
  have hatt : Ensures π view p.attempt (fun x s' => Ensures π view (f x) Q' E' s') E' s :=
    hp.attempt hok herr
  exact hatt.bind fun _ _ h => h

end Ensures

/-- Wherever it stops, the program has kept `P`; it returns only values in `V` and raises only
errors in `X`. -/
def Keeps (P : σ → Prop) (V : α → Prop) (X : ε → Prop) (p : Prog χ σ ε α) : Prop :=
  ∀ script s, P s → (p script s).Ends (fun a s' => P s' ∧ V a) (fun e s' => P s' ∧ X e) P

namespace Keeps

variable {P : σ → Prop} {U V : α → Prop} {X X' : ε → Prop} {p : Prog χ σ ε α}

lemma pure (h : V a) : Keeps P V X (Pure.pure a : Prog χ σ ε α) :=
  fun _ _ hs => ⟨hs, h⟩

lemma throw (h : X e) : Keeps P V X (.throw e : Prog χ σ ε α) :=
  fun _ _ hs => ⟨hs, h⟩

lemma modify {f : σ → σ} (h : ∀ s, P s → P (f s)) :
    Keeps P (fun _ => True) X (.modify f : Prog χ σ ε Unit) :=
  fun _ s hs => ⟨h s hs, trivial⟩

lemma bind {V : β → Prop} (hp : Keeps P U X p)
    (hf : ∀ a, U a → Keeps P V X (f a)) : Keeps P V X (p >>= f) := by
  intro script s hs
  exact (hp script s hs).bind fun a rest s' _ h => hf a h.2 rest s' h.1

lemma ask_bind {f : χ → Prog χ σ ε α} (h : ∀ c, Keeps P V X (f c)) : Keeps P V X (.ask >>= f) := by
  intro script s hs
  cases script with
  | nil => exact hs
  | cons c rest => exact h c rest s hs

lemma get_bind {f : σ → Prog χ σ ε α} (h : ∀ s, P s → Keeps P V X (f s)) :
    Keeps P V X (.get >>= f) :=
  fun script s hs => h s hs script s hs

lemma modify_bind {f : σ → σ} (hf : ∀ s, P s → P (f s))
    (hg : Keeps P V X (g ())) : Keeps P V X (.modify f >>= g) :=
  fun script s hs => hg script (f s) (hf s hs)

/-- A caught error is a value for the continuation. -/
lemma attempt {V : Except ε α → Prop} (hp : Keeps P U X p) (hok : ∀ a, U a → V (.ok a))
    (herr : ∀ e, X e → V (.error e)) : Keeps P V X' p.attempt :=
  fun script s hs => (hp script s hs).attempt (fun a _ h => ⟨h.1, hok a h.2⟩) fun e _ h =>
    ⟨h.1, herr e h.2⟩

lemma attempt_bind {V : β → Prop} {f : Except ε α → Prog χ σ ε β} (hp : Keeps P U X p)
    (hok : ∀ a, U a → Keeps P V X' (f (.ok a)))
    (herr : ∀ e, X e → Keeps P V X' (f (.error e))) : Keeps P V X' (p.attempt >>= f) :=
  (hp.attempt (V := fun x => Keeps P V X' (f x)) hok herr).bind fun _ h => h

lemma when [Decidable c] {p : Prog χ σ ε Unit}
    (h : c → Keeps P (fun _ => True) X p) : Keeps P (fun _ => True) X (.when c p) := by
  unfold Prog.when
  split
  case isTrue hc => exact h hc
  case isFalse hc => exact pure trivial

lemma mono (h : Keeps P U X p) (hV : ∀ a, U a → V a) (hX : ∀ e, X e → X' e) : Keeps P V X' p :=
  fun script s hs => (h script s hs).mono (fun a _ ha => ⟨ha.1, hV a ha.2⟩)
    (fun e _ he => ⟨he.1, hX e he.2⟩) fun _ hs => hs

end Keeps

end Crash
