import Aizign.Prog

/-!
# Handlers and simulations of programs

`via h` replaces every operation of a program by a program over another
signature. Two interpretations that answer alike and keep a relation between
their states answer alike on every program over the operations concerned, so a
program over an abstract signature may be run on any implementation of it.
-/

namespace Aizign

namespace Prog

section
variable {Op Op' : Type} {Res : Op → Type} {Res' : Op' → Type} {α β : Type}

def via (h : (o : Op) → Prog Res' (Res o)) : Prog Res α → Prog Res' α
  | .ret a => .ret a
  | .call o k => h o >>= fun r => (k r).via h

variable {h : (o : Op) → Prog Res' (Res o)}

@[simp] theorem via_ret (a : α) : (Prog.ret a : Prog Res α).via h = .ret a := rfl

theorem bind_ret (p : Prog Res α) : (p >>= fun a => Prog.ret a) = p := by
  induction p with
  | ret a => rfl
  | call o k ih => exact congrArg (Prog.call o) (funext ih)

theorem via_op (o : Op) : (Prog.op o : Prog Res (Res o)).via h = h o := bind_ret (h o)

theorem via_bind (p : Prog Res α) (f : α → Prog Res β) : (p >>= f).via h = p.via h >>= fun a => (f a).via h := by
  induction p with
  | ret a => rfl
  | call o k ih =>
    show (h o >>= fun r => (k r >>= f).via h) = (h o >>= fun r => (k r).via h) >>= fun a => (f a).via h
    rw [bind_assoc]
    exact congrArg (h o >>= ·) (funext ih)

variable {σ τ : Type} {run : (o : Op') → σ → Res' o × σ}

/-- Running the handled program is running the program with the handlers as its interpretation. -/
theorem exec_via (p : Prog Res α) (s : σ) :
    (p.via h).exec run s = p.exec (fun o s => (h o).exec run s) s := by
  induction p generalizing s with
  | ret a => rfl
  | call o k ih =>
    show (h o >>= fun r => (k r).via h).exec run s = _
    rw [exec_bind]
    exact ih _ _

theorem Uses.via {P : Op' → Prop} (hh : ∀ o, (h o).Uses P) (p : Prog Res α) : (p.via h).Uses P := by
  induction p with
  | ret a => trivial
  | call o k ih => exact Uses.bind (hh o) ih

/-- Where each handler ends and stops as `spec` tells of its operation, the handled program ends and stops as the
program does under `spec`. -/
theorem wp_via {step : (o : Op') → σ → Res' o → σ → Prop} {spec : (o : Op) → σ → Res o → σ → Prop} {I C : σ → Prop}
    {Q : α → σ → Prop}
    (hh : ∀ o s, I s → (h o).wp step (fun t => I t ∧ ∃ r, spec o s r t) (fun r t => spec o s r t) s) {p : Prog Res α}
    {s : σ} (hI : I s) (hp : p.wp spec C Q s) :
    (p.via h).wp step (fun t => I t ∧ C t) (fun a t => I t ∧ Q a t) s := by
  induction p generalizing s with
  | ret a => exact ⟨⟨hI, hp.1⟩, hI, hp.2⟩
  | call o k ih =>
    refine wp_bind (wp_mono ?_ ?_ (hh o s hI))
    · rintro t ⟨ht, r, hr⟩
      exact ⟨ht, wp_here (hp.2 r t hr)⟩
    · intro r t ht hr
      exact ih r ht.1 (hp.2 r t hr)

end

section
variable {Op : Type} {Res : Op → Type} {α σ τ : Type}
variable {run : (o : Op) → σ → Res o × σ} {spec : (o : Op) → τ → Res o × τ} {P : Op → Prop} {R : σ → τ → Prop}

/-- One operation at a time: the same answers, and the relation is kept. -/
def Simulates (run : (o : Op) → σ → Res o × σ) (spec : (o : Op) → τ → Res o × τ) (P : Op → Prop)
    (R : σ → τ → Prop) : Prop :=
  ∀ o, P o → ∀ s t, R s t → (run o s).1 = (spec o t).1 ∧ R (run o s).2 (spec o t).2

theorem Simulates.exec (h : Simulates run spec P R) {p : Prog Res α} (hp : p.Uses P) {s : σ} {t : τ} (hR : R s t) :
    (p.exec run s).1 = (p.exec spec t).1 ∧ R (p.exec run s).2 (p.exec spec t).2 := by
  induction p generalizing s t with
  | ret a => exact ⟨rfl, hR⟩
  | call o k ih =>
    obtain ⟨hr, hR'⟩ := h o hp.1 s t hR
    simp only [Prog.exec]
    rw [hr]
    exact ih _ (hp.2 _) hR'

theorem uses_all (p : Prog Res α) : p.Uses fun _ => True := by
  induction p with
  | ret a => trivial
  | call o k ih => exact ⟨trivial, ih⟩

theorem wp_both {step : (o : Op) → σ → Res o → σ → Prop} {C C' : σ → Prop} {Q Q' : α → σ → Prop} {p : Prog Res α} {s : σ}
    (h : p.wp step C Q s) (h' : p.wp step C' Q' s) :
    p.wp step (fun s => C s ∧ C' s) (fun a s => Q a s ∧ Q' a s) s := by
  induction p generalizing s with
  | ret a => exact ⟨⟨h.1, h'.1⟩, h.2, h'.2⟩
  | call o k ih => exact ⟨⟨h.1, h'.1⟩, fun r s' hs => ih r (h.2 r s' hs) (h'.2 r s' hs)⟩

theorem exec_invariant {C : σ → Prop} (h : ∀ o, P o → ∀ s, C s → C (run o s).2) {p : Prog Res α} (hp : p.Uses P) {s : σ}
    (hC : C s) : C (p.exec run s).2 := by
  induction p generalizing s with
  | ret a => exact hC
  | call o k ih => exact ih _ (hp.2 _) (h o hp.1 s hC)

end

/-! ## Programs under interference -/

section
variable {Op : Type} {Res : Op → Type} {σ α β : Type} (step : (o : Op) → σ → Res o → σ → Prop) (I : σ → Prop)

/-- Every run of `p` in which each operation finds some state of `I`, whatever others do between them, ends in `P`. -/
def Roams : Prog Res α → (α → Prop) → Prop
  | .ret a, P => P a
  | .call o k, P => ∀ s r s', I s → step o s r s' → (k r).Roams P

variable {step I}

theorem roams_bind {p : Prog Res α} {f : α → Prog Res β} {P : β → Prop}
    (h : p.Roams step I fun a => (f a).Roams step I P) : (p >>= f).Roams step I P := by
  induction p with
  | ret a => exact h
  | call o k ih => exact fun s r s' hs hstep => ih r (h s r s' hs hstep)

theorem roams_mono {p : Prog Res α} {P P' : α → Prop} (hP : ∀ a, P a → P' a) (h : p.Roams step I P) :
    p.Roams step I P' := by
  induction p with
  | ret a => exact hP a h
  | call o k ih => exact fun s r s' hs hstep => ih r (h s r s' hs hstep)

theorem roams_true (p : Prog Res α) : p.Roams step I fun _ => True := by
  induction p with
  | ret a => trivial
  | call o k ih => exact fun s r s' _ _ => ih r

end

/-! ## Programs with a log -/

section
variable {Op : Type} {Res : Op → Type} {α : Type}

def Logs (o : Op) (s : List ((o : Op) × Res o)) (r : Res o) (s' : List ((o : Op) × Res o)) : Prop := s' = s ++ [⟨o, r⟩]

theorem Steps.log_grows {p q : Prog Res α} {s t : List ((o : Op) × Res o)} (h : Steps Logs p s q t) : s <+: t := by
  induction h with
  | refl => exact List.prefix_refl _
  | head hs _ ih =>
    rw [Logs] at hs
    subst hs
    exact (List.prefix_append _ _).trans ih

/-- A call makes the log longer. -/
theorem Steps.log_ne {p q : Prog Res α} {s t : List ((o : Op) × Res o)} {x : (o : Op) × Res o}
    (h : Steps Logs p (s ++ [x]) q t) : t ≠ s := by
  intro he
  have := h.log_grows.length_le
  rw [he, List.length_append, List.length_singleton] at this
  omega

/-- A program and what it was answered determine what is left of it. -/
theorem Steps.log_unique {p q q' : Prog Res α} {s t : List ((o : Op) × Res o)} (h : Steps Logs p s q t)
    (h' : Steps Logs p s q' t) : q = q' := by
  induction h with
  | refl =>
    cases h' with
    | refl => rfl
    | head hs hrest =>
      rw [Logs] at hs
      subst hs
      exact absurd rfl hrest.log_ne
  | @head o k s s₁ t r q hs hrest ih =>
    rw [Logs] at hs
    subst hs
    cases h' with
    | refl => exact absurd rfl hrest.log_ne
    | @head _ _ _ s₂ _ r' _ hs' hrest' =>
      rw [Logs] at hs'
      subst hs'
      have hsame : s ++ [⟨o, r⟩] = s ++ [⟨o, r'⟩] := by
        have hl : (s ++ [(⟨o, r⟩ : (o : Op) × Res o)]).length = (s ++ [(⟨o, r'⟩ : (o : Op) × Res o)]).length := by simp
        exact (List.prefix_of_prefix_length_le hrest.log_grows hrest'.log_grows (le_of_eq hl)).eq_of_length hl
      have hr : r = r' := by simpa using hsame
      subst hr
      exact ih hrest'

end

end Prog

/-! ## Machines -/

section
variable {ι σ τ α : Type}

def feed (f : ι → σ → α × σ) : List ι → σ → List α × σ
  | [], s => ([], s)
  | i :: is, s => ((f i s).1 :: (feed f is (f i s).2).1, (feed f is (f i s).2).2)

/-- Machines that answer each input alike and keep a relation answer every sequence alike. -/
theorem feed_simulates {f : ι → σ → α × σ} {g : ι → τ → α × τ} {R : σ → τ → Prop}
    (h : ∀ i s t, R s t → (f i s).1 = (g i t).1 ∧ R (f i s).2 (g i t).2) (is : List ι) {s : σ} {t : τ} (hR : R s t) :
    (feed f is s).1 = (feed g is t).1 ∧ R (feed f is s).2 (feed g is t).2 := by
  induction is generalizing s t with
  | nil => exact ⟨rfl, hR⟩
  | cons i is ih =>
    obtain ⟨ha, hR'⟩ := h i s t hR
    obtain ⟨has, hRs⟩ := ih hR'
    refine ⟨?_, hRs⟩
    show (f i s).1 :: _ = (g i t).1 :: _
    rw [ha, has]

end

end Aizign
