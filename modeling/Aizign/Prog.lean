import Mathlib.Algebra.Order.Ring.Nat
import Mathlib.Data.List.Basic
import Mathlib.Tactic.Common

/-!
# Programs over a signature of operations

A program is a tree of operation calls, `Prog Res α`, where `Res o` is what the
operation `o` answers. Its meaning is a parameter: `Steps` runs it under any
step relation and `wp` is the weakest precondition for a postcondition `Q` and a
condition `C` that has to hold between any two operations, so that it also
holds of every state an interruption leaves behind. `exec` runs a program under
a function.
-/

namespace Aizign

inductive Prog {Op : Type} (Res : Op → Type) (α : Type) : Type
  | ret (a : α)
  | call (o : Op) (k : Res o → Prog Res α)

namespace Prog

section
variable {Op : Type} {Res : Op → Type} {α β γ : Type}

def bind : Prog Res α → (α → Prog Res β) → Prog Res β
  | .ret a, f => f a
  | .call o k, f => .call o fun r => (k r).bind f

instance : Monad (Prog Res) where
  pure := .ret
  bind := Prog.bind

def op (o : Op) : Prog Res (Res o) := .call o .ret

@[simp] theorem pure_eq (a : α) : (pure a : Prog Res α) = .ret a := rfl

@[simp] theorem ret_bind (a : α) (f : α → Prog Res β) : (Prog.ret a >>= f) = f a := rfl

@[simp] theorem call_bind (o : Op) (k : Res o → Prog Res α) (f : α → Prog Res β) :
    (Prog.call o k >>= f) = .call o fun r => k r >>= f := rfl

theorem bind_assoc (p : Prog Res α) (f : α → Prog Res β) (g : β → Prog Res γ) :
    ((p >>= f) >>= g) = p >>= fun a => f a >>= g := by
  induction p with
  | ret a => rfl
  | call o k ih => exact congrArg (Prog.call o) (funext ih)

def Uses (P : Op → Prop) : Prog Res α → Prop
  | .ret _ => True
  | .call o k => P o ∧ ∀ r, (k r).Uses P

theorem Uses.bind {P : Op → Prop} {p : Prog Res α} {f : α → Prog Res β} (hp : p.Uses P) (hf : ∀ a, (f a).Uses P) :
    (p >>= f).Uses P := by
  induction p with
  | ret a => exact hf a
  | call o k ih => exact ⟨hp.1, fun r => ih r (hp.2 r)⟩

theorem Uses.op {P : Op → Prop} {o : Op} (h : P o) : (Prog.op o : Prog Res (Res o)).Uses P := ⟨h, fun _ => trivial⟩

theorem Uses.mono {P P' : Op → Prop} (h : ∀ o, P o → P' o) {p : Prog Res α} (hp : p.Uses P) : p.Uses P' := by
  induction p with
  | ret a => trivial
  | call o k ih => exact ⟨h o hp.1, fun r => ih r (hp.2 r)⟩

end

/-! ## Runs -/

section
variable {Op : Type} {Res : Op → Type} {σ : Type} {α β : Type} (step : (o : Op) → σ → Res o → σ → Prop)

/-- `Steps p s p' s'`: from `s`, after some operations of `p`, what is left is `p'` and the state is `s'`. -/
inductive Steps : Prog Res α → σ → Prog Res α → σ → Prop
  | refl {p : Prog Res α} {s : σ} : Steps p s p s
  | head {o : Op} {k : Res o → Prog Res α} {s s' s'' : σ} {r : Res o} {p : Prog Res α} :
      step o s r s' → Steps (k r) s' p s'' → Steps (.call o k) s p s''

/-- The weakest precondition of `p`; `C` holds before, between and after the operations. -/
def wp (C : σ → Prop) : Prog Res α → (α → σ → Prop) → σ → Prop
  | .ret a, Q, s => C s ∧ Q a s
  | .call o k, Q, s => C s ∧ ∀ r s', step o s r s' → (k r).wp C Q s'

variable {step} {C : σ → Prop}

theorem Steps.trans {p p' p'' : Prog Res α} {s s' s'' : σ} (h : Steps step p s p' s') (h' : Steps step p' s' p'' s'') :
    Steps step p s p'' s'' := by
  induction h with
  | refl => exact h'
  | head hs _ ih => exact .head hs (ih h')

theorem Steps.bind {p p' : Prog Res α} {s s' : σ} (h : Steps step p s p' s') (f : α → Prog Res β) :
    Steps step (p >>= f) s (p' >>= f) s' := by
  induction h with
  | refl => exact .refl
  | head hs _ ih => exact .head hs ih

theorem Steps.mono {step' : (o : Op) → σ → Res o → σ → Prop} (h : ∀ o s r s', step o s r s' → step' o s r s')
    {p p' : Prog Res α} {s s' : σ} (hs : Steps step p s p' s') : Steps step' p s p' s' := by
  induction hs with
  | refl => exact .refl
  | head hs _ ih => exact .head (h _ _ _ _ hs) ih

theorem wp_here {p : Prog Res α} {Q : α → σ → Prop} {s : σ} (h : p.wp step C Q s) : C s := by
  cases p with
  | ret a => exact h.1
  | call o k => exact h.1

theorem wp_mono {p : Prog Res α} {C' : σ → Prop} {Q Q' : α → σ → Prop} (hC : ∀ s, C s → C' s)
    (hQ : ∀ a s, C s → Q a s → Q' a s) {s : σ} (h : p.wp step C Q s) : p.wp step C' Q' s := by
  induction p generalizing s with
  | ret a => exact ⟨hC _ h.1, hQ _ _ h.1 h.2⟩
  | call o k ih => exact ⟨hC _ h.1, fun r s' hs => ih r (h.2 r s' hs)⟩

theorem wp_bind {p : Prog Res α} {f : α → Prog Res β} {Q : β → σ → Prop} {s : σ}
    (h : p.wp step C (fun a s' => (f a).wp step C Q s') s) : (p >>= f).wp step C Q s := by
  induction p generalizing s with
  | ret a => exact h.2
  | call o k ih => exact ⟨h.1, fun r s' hs => ih r (h.2 r s' hs)⟩

/-- A run of a program that satisfies its weakest precondition stays inside `C` and ends in the postcondition. -/
theorem wp_steps {p p' : Prog Res α} {Q : α → σ → Prop} {s s' : σ} (h : p.wp step C Q s)
    (hs : Steps step p s p' s') : p'.wp step C Q s' := by
  induction hs with
  | refl => exact h
  | head hs _ ih => exact ih (h.2 _ _ hs)

theorem wp_between {p p' : Prog Res α} {Q : α → σ → Prop} {s s' : σ} (h : p.wp step C Q s)
    (hs : Steps step p s p' s') : C s' := wp_here (wp_steps h hs)

theorem wp_result {p : Prog Res α} {Q : α → σ → Prop} {s s' : σ} {a : α} (h : p.wp step C Q s)
    (hs : Steps step p s (.ret a) s') : Q a s' := (wp_steps h hs).2

theorem wp_and {p : Prog Res α} {C' : σ → Prop} {Q Q' : α → σ → Prop} {s : σ} (h : p.wp step C Q s)
    (h' : p.wp step C' Q' s) : p.wp step C (fun a s => Q a s ∧ Q' a s) s := by
  induction p generalizing s with
  | ret a => exact ⟨h.1, h.2, h'.2⟩
  | call o k ih => exact ⟨h.1, fun r s' hs => ih r (h.2 r s' hs) (h'.2 r s' hs)⟩

/-- An invariant of the operations that a program uses. -/
theorem wp_invariant {P : Op → Prop} (hP : ∀ o, P o → ∀ s r s', step o s r s' → C s → C s') {p : Prog Res α}
    (hp : p.Uses P) {s : σ} (hC : C s) : p.wp step C (fun _ _ => True) s := by
  induction p generalizing s with
  | ret a => exact ⟨hC, trivial⟩
  | call o k ih => exact ⟨hC, fun r s' hs => ih r (hp.2 r) (hP o hp.1 s r s' hs hC)⟩

/-! ## Running under a function -/

def exec (run : (o : Op) → σ → Res o × σ) : Prog Res α → σ → α × σ
  | .ret a, s => (a, s)
  | .call o k, s => (k (run o s).1).exec run (run o s).2

variable {run : (o : Op) → σ → Res o × σ}

@[simp] theorem exec_ret (a : α) (s : σ) : (Prog.ret a : Prog Res α).exec run s = (a, s) := rfl

theorem exec_bind (p : Prog Res α) (f : α → Prog Res β) (s : σ) :
    (p >>= f).exec run s = (f (p.exec run s).1).exec run (p.exec run s).2 := by
  induction p generalizing s with
  | ret a => rfl
  | call o k ih => exact ih _ _

theorem exec_op (o : Op) (s : σ) : (Prog.op o : Prog Res (Res o)).exec run s = run o s := rfl

/-- A run under a function does not change what the program ends with. -/
theorem Steps.exec_eq {p q : Prog Res α} {s t : σ} (h : Steps (fun o s r s' => run o s = (r, s')) p s q t) :
    p.exec run s = q.exec run t := by
  induction h with
  | refl => rfl
  | head hs _ ih => rw [exec, hs]; exact ih

theorem steps_exec (p : Prog Res α) (s : σ) :
    Steps (fun o s r s' => run o s = (r, s')) p s (.ret (p.exec run s).1) (p.exec run s).2 := by
  induction p generalizing s with
  | ret a => exact .refl
  | call o k ih => exact .head rfl (ih _ _)

end

end Prog

end Aizign
