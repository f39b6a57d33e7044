import Aizign.Store

/-!
# Reasoning about store programs

`Store.Answers p s r` says what a program that only looks can answer on the file
system `s`, failures included; `Store.Looks p` that it only looks. A program
that changes files follows a script of operations: `Along` says that a history
has got some way along a script, or was stopped by a failure at its next
operation.
-/

namespace Aizign

/-! ## Programs that only look -/

section
variable {me : Nat} {allow : OpError → Prop}

theorem Op.run_looks {o : Op} (h : o.looks = true) (s : Fs) : (o.run me s).2 = s := by
  cases o <;> first
    | rfl
    | (simp only [Op.looks, Op.mutates, Bool.not_true, Bool.false_eq_true] at h; done)
    | (simp only [Op.run]; split <;> (try split) <;> rfl)
    | skip
  rename_i n createNew app
  simp only [Op.looks, Op.mutates, Bool.not_eq_true'] at h
  subst h
  simp only [Op.run]
  split
  · rfl
  · split
    · rfl
    · split
      · rfl
      · split <;> rfl

theorem Op.torn_looks {o : Op} (h : o.looks = true) (k : Nat) (s : Fs) : o.torn k s = s := by
  cases o <;> first
    | rfl
    | (simp only [Op.looks, Op.mutates, Bool.not_true, Bool.false_eq_true] at h)

theorem Op.mutates_looks {o : Op} (h : o.looks = true) : o.mutates = false := by
  cases o <;> first | rfl | simpa [Op.looks] using h

theorem Op.step_looks {o : Op} (ho : o.looks = true) {h h' : Hist} {r : o.Res} (hs : o.Step me allow h r h') :
    h' = h := by
  obtain ⟨g, -, rfl⟩ := hs
  have he : o.effect me h.fs g = h.fs := by
    cases g with
    | nothing => rfl
    | torn k => exact Op.torn_looks ho k h.fs
    | full => exact Op.run_looks ho h.fs
  rw [he, Op.event, Op.mutates_looks ho]
  simp

variable (me allow) in
/-- What a program that only looks can return on `s`. -/
def Prog.Answers {α : Type} : Prog Op.Res α → Fs → α → Prop
  | .ret a, _, b => a = b
  | .call o k, s, b => ∃ r g, o.Outcome me allow s r g ∧ (k r).Answers s b

theorem Prog.answers_bind {α β : Type} {p : Prog Op.Res α} {f : α → Prog Op.Res β} {s : Fs} {b : β}
    (h : (p >>= f).Answers me allow s b) : ∃ a, p.Answers me allow s a ∧ (f a).Answers me allow s b := by
  induction p with
  | ret a => exact ⟨a, rfl, h⟩
  | call o k ih =>
    obtain ⟨r, g, ho, h⟩ := h
    obtain ⟨a, ha, hb⟩ := ih r h
    exact ⟨a, ⟨r, g, ho, ha⟩, hb⟩

theorem Prog.wp_answers {α : Type} {C : Hist → Prop} {p : Prog Op.Res α} {Q : α → Hist → Prop} {h : Hist}
    (hp : p.Uses fun o => o.looks = true) (hC : C h) (hQ : ∀ a, p.Answers me allow h.fs a → Q a h) :
    p.wp (Op.Step me allow) C Q h := by
  induction p with
  | ret a => exact ⟨hC, hQ a rfl⟩
  | call o k ih =>
    refine ⟨hC, fun r h' hs => ?_⟩
    have he := Op.step_looks hp.1 hs
    subst he
    obtain ⟨g, ho, -⟩ := hs
    exact ih r (hp.2 r) fun a ha => hQ a ⟨r, g, ho, ha⟩

end

namespace Store

def Looks {α : Type} (p : Store α) : Prop := Prog.Uses (fun o => o.looks = true) p.run

def Answers (me : Nat) (allow : OpError → Prop) {α : Type} (p : Store α) (s : Fs) (r : Except JournalError α) : Prop :=
  Prog.Answers me allow p.run s r

def wp (me : Nat) (allow : OpError → Prop) (C : Hist → Prop) {α : Type} (p : Store α)
    (Q : Except JournalError α → Hist → Prop) (h : Hist) : Prop :=
  Prog.wp (Op.Step me allow) C p.run Q h

section
variable {me : Nat} {allow : OpError → Prop} {α β : Type} {C : Hist → Prop}

theorem run_bind (p : Store α) (f : α → Store β) :
    (p >>= f).run = p.run >>= fun r =>
      match r with
      | .ok a => (f a).run
      | .error e => .ret (.error e) := by
  refine congrArg (Prog.bind p.run) (funext fun r => ?_)
  cases r <;> rfl

/-! ### Looking -/

@[simp] theorem looks_pure (a : α) : Looks (pure a : Store α) := trivial

@[simp] theorem looks_fail (e : JournalError) : Looks (fail e : Store α) := trivial

@[simp] theorem looks_fromExcept (r : Except JournalError α) : Looks (fromExcept r : Store α) := trivial

@[simp] theorem looks_io {o : Op} (h : o.looks = true) (wrap : Text → JournalError) : Looks (io o wrap) := by
  refine ⟨h, fun r => ?_⟩
  cases r <;> trivial

@[simp] theorem looks_bind {p : Store α} {f : α → Store β} (hp : Looks p) (hf : ∀ a, Looks (f a)) : Looks (p >>= f) := by
  rw [Looks, run_bind]
  refine Prog.Uses.bind hp fun r => ?_
  cases r with
  | ok a => exact hf a
  | error e => trivial

@[simp] theorem looks_map {p : Store α} {f : α → β} (hp : Looks p) : Looks (f <$> p) := by
  refine looks_bind hp fun a => ?_
  trivial

@[simp] theorem looks_mapErr {f : JournalError → JournalError} {p : Store α} (hp : Looks p) : Looks (mapErr f p) := by
  refine Prog.Uses.bind hp fun r => ?_
  cases r <;> trivial

@[simp] theorem looks_ite {c : Prop} [Decidable c] {p q : Store α} (hp : c → Looks p) (hq : ¬c → Looks q) :
    Looks (if c then p else q) := by
  by_cases h : c
  · rw [if_pos h]; exact hp h
  · rw [if_neg h]; exact hq h

/-! ### Answers -/

theorem answers_pure {a : α} {s : Fs} {r : Except JournalError α} (h : Answers me allow (pure a : Store α) s r) :
    r = .ok a := Eq.symm h

theorem answers_fail {e : JournalError} {s : Fs} {r : Except JournalError α}
    (h : Answers me allow (fail e : Store α) s r) : r = .error e := Eq.symm h

theorem answers_fromExcept {x : Except JournalError α} {s : Fs} {r : Except JournalError α}
    (h : Answers me allow (fromExcept x : Store α) s r) : r = x := Eq.symm h

theorem answers_bind {p : Store α} {f : α → Store β} {s : Fs} {r : Except JournalError β}
    (h : Answers me allow (p >>= f) s r) :
    (∃ a, Answers me allow p s (.ok a) ∧ Answers me allow (f a) s r) ∨
      ∃ e, Answers me allow p s (.error e) ∧ r = .error e := by
  rw [Answers, run_bind] at h
  obtain ⟨x, hx, h⟩ := Prog.answers_bind h
  cases x with
  | ok a => exact Or.inl ⟨a, hx, h⟩
  | error e => exact Or.inr ⟨e, hx, Eq.symm h⟩

theorem answers_map {p : Store α} {f : α → β} {s : Fs} {r : Except JournalError β}
    (h : Answers me allow (f <$> p) s r) : ∃ x, Answers me allow p s x ∧ r = x.map f := by
  rcases answers_bind h with ⟨a, ha, h⟩ | ⟨e, he, rfl⟩
  · exact ⟨.ok a, ha, answers_pure h⟩
  · exact ⟨.error e, he, rfl⟩

theorem answers_mapErr {f : JournalError → JournalError} {p : Store α} {s : Fs} {r : Except JournalError α}
    (h : Answers me allow (mapErr f p) s r) :
    (∃ a, Answers me allow p s (.ok a) ∧ r = .ok a) ∨ ∃ e, Answers me allow p s (.error e) ∧ r = .error (f e) := by
  obtain ⟨x, hx, h⟩ := Prog.answers_bind h
  cases x with
  | ok a => exact Or.inl ⟨a, hx, Eq.symm h⟩
  | error e => exact Or.inr ⟨e, hx, Eq.symm h⟩

theorem answers_io {o : Op} {wrap : Text → JournalError} {s : Fs} {r : Except JournalError o.Val}
    (hobs : ∀ t, o ≠ .observe t) (h : Answers me allow (io o wrap) s r) :
    (∃ v, r = .ok v ∧ (o.run me s).1 = .ok v) ∨ ∃ t, r = .error (wrap t) := by
  obtain ⟨x, g, ho, h⟩ := h
  cases ho with
  | normal =>
    generalize hx : (o.run me s).1 = x at h
    cases x with
    | ok v => exact Or.inl ⟨v, Eq.symm h, rfl⟩
    | error e => exact Or.inr ⟨e.text, Eq.symm h⟩
  | failed e g _ => exact Or.inr ⟨e.text, Eq.symm h⟩
  | observed x ht _ => obtain ⟨t, ht⟩ := ht; exact absurd ht (hobs t)

/-! ### Preconditions -/

theorem wp_pure {a : α} {Q : Except JournalError α → Hist → Prop} {h : Hist} (hC : C h) (hQ : Q (.ok a) h) :
    wp me allow C (pure a : Store α) Q h := ⟨hC, hQ⟩

theorem wp_fail {e : JournalError} {Q : Except JournalError α → Hist → Prop} {h : Hist} (hC : C h)
    (hQ : Q (.error e) h) : wp me allow C (fail e : Store α) Q h := ⟨hC, hQ⟩

theorem wp_bind {p : Store α} {f : α → Store β} {Q : Except JournalError β → Hist → Prop} {h : Hist}
    (hp : wp me allow C p (fun r h' =>
      match r with
      | .ok a => wp me allow C (f a) Q h'
      | .error e => Q (.error e) h') h) : wp me allow C (p >>= f) Q h := by
  rw [wp, run_bind]
  refine Prog.wp_bind (Prog.wp_mono (fun _ h => h) ?_ hp)
  intro r h' hC hr
  cases r with
  | ok a => exact hr
  | error e => exact ⟨hC, hr⟩

theorem wp_ite {c : Prop} [Decidable c] {p q : Store α} {Q : Except JournalError α → Hist → Prop} {h : Hist}
    (hp : c → wp me allow C p Q h) (hq : ¬c → wp me allow C q Q h) : wp me allow C (if c then p else q) Q h := by
  by_cases hc : c
  · rw [if_pos hc]; exact hp hc
  · rw [if_neg hc]; exact hq hc

theorem wp_mono {p : Store α} {C' : Hist → Prop} {Q Q' : Except JournalError α → Hist → Prop} {h : Hist}
    (hp : wp me allow C p Q h) (hC : ∀ h, C h → C' h) (hQ : ∀ r h, C h → Q r h → Q' r h) :
    wp me allow C' p Q' h :=
  Prog.wp_mono hC hQ hp

theorem wp_mapErr {f : JournalError → JournalError} {p : Store α} {Q : Except JournalError α → Hist → Prop} {h : Hist}
    (hp : wp me allow C p (fun r h' =>
      match r with
      | .ok a => Q (.ok a) h'
      | .error e => Q (.error (f e)) h') h) : wp me allow C (mapErr f p) Q h := by
  refine Prog.wp_bind (Prog.wp_mono (fun _ h => h) ?_ hp)
  intro r h' hC hr
  cases r with
  | ok a => exact ⟨hC, hr⟩
  | error e => exact ⟨hC, hr⟩

theorem wp_looks {p : Store α} {Q : Except JournalError α → Hist → Prop} {h : Hist} (hp : Looks p) (hC : C h)
    (hQ : ∀ r, Answers me allow p h.fs r → Q r h) : wp me allow C p Q h :=
  Prog.wp_answers hp hC hQ

/-- A program that only looks, and the rest. -/
theorem wp_looks_bind {p : Store α} {f : α → Store β} {Q : Except JournalError β → Hist → Prop} {h : Hist}
    (hp : Looks p) (hC : C h) (hok : ∀ a, Answers me allow p h.fs (.ok a) → wp me allow C (f a) Q h)
    (herr : ∀ e, Answers me allow p h.fs (.error e) → Q (.error e) h) : wp me allow C (p >>= f) Q h := by
  refine wp_bind (wp_looks hp hC ?_)
  intro r hr
  cases r with
  | ok a => exact hok a hr
  | error e => exact herr e hr

/-! ### What every answer satisfies -/

variable (me allow) in
/-- Every answer of `p` on `s` is a value in `P` or an error in `E`. -/
def Gives (p : Store α) (s : Fs) (E : JournalError → Prop) (P : α → Prop) : Prop :=
  ∀ r, Answers me allow p s r →
    match r with
    | .ok a => P a
    | .error e => E e

variable {s : Fs} {E E' : JournalError → Prop} {P P' : α → Prop} {R : β → Prop}

theorem gives_pure {a : α} (h : P a) : Gives me allow (pure a) s E P := by
  intro r hr; rw [answers_pure hr]; exact h

theorem gives_fail {e : JournalError} (h : E e) : Gives me allow (fail e : Store α) s E P := by
  intro r hr; rw [answers_fail hr]; exact h

theorem gives_fromExcept {x : Except JournalError α} (hok : ∀ a, x = .ok a → P a) (herr : ∀ e, x = .error e → E e) :
    Gives me allow (fromExcept x) s E P := by
  intro r hr
  rw [answers_fromExcept hr]
  cases x with
  | ok a => exact hok a rfl
  | error e => exact herr e rfl

theorem gives_bind {p : Store α} {f : α → Store β} (hp : Gives me allow p s E P)
    (hf : ∀ a, P a → Gives me allow (f a) s E R) : Gives me allow (p >>= f) s E R := by
  intro r hr
  rcases answers_bind hr with ⟨a, ha, hr⟩ | ⟨e, he, rfl⟩
  · exact hf a (hp _ ha) r hr
  · exact hp _ he

theorem gives_io {o : Op} {wrap : Text → JournalError} {P : o.Val → Prop} (hobs : ∀ t, o ≠ .observe t)
    (hok : ∀ v, (o.run me s).1 = .ok v → P v) (herr : ∀ t, E (wrap t)) : Gives me allow (io o wrap) s E P := by
  intro r hr
  rcases answers_io hobs hr with ⟨v, rfl, hv⟩ | ⟨t, rfl⟩
  · exact hok v hv
  · exact herr t

theorem gives_ite {c : Prop} [Decidable c] {p q : Store α} (hp : c → Gives me allow p s E P)
    (hq : ¬c → Gives me allow q s E P) : Gives me allow (if c then p else q) s E P := by
  by_cases h : c
  · rw [if_pos h]; exact hp h
  · rw [if_neg h]; exact hq h

theorem gives_mapErr {f : JournalError → JournalError} {p : Store α} (hp : Gives me allow p s E' P)
    (hf : ∀ e, E' e → E (f e)) : Gives me allow (mapErr f p) s E P := by
  intro r hr
  rcases answers_mapErr hr with ⟨a, ha, rfl⟩ | ⟨e, he, rfl⟩
  · exact hp _ ha
  · exact hf e (hp _ he)

theorem gives_mono {p : Store α} (hp : Gives me allow p s E P) (hE : ∀ e, E e → E' e) (hP : ∀ a, P a → P' a) :
    Gives me allow p s E' P' := by
  intro r hr
  have := hp r hr
  cases r with
  | ok a => exact hP a this
  | error e => exact hE e this

/-- A program that only looks and whose answers are known, and the rest. -/
theorem wp_gives {p : Store α} {Q : Except JournalError α → Hist → Prop} {h : Hist} (hp : Looks p) (hC : C h)
    (hg : Gives me allow p h.fs E P) (hok : ∀ a, P a → Q (.ok a) h) (herr : ∀ e, E e → Q (.error e) h) :
    wp me allow C p Q h := by
  refine wp_looks hp hC fun r hr => ?_
  have := hg r hr
  cases r with
  | ok a => exact hok a this
  | error e => exact herr e this

theorem wp_gives_bind {p : Store α} {f : α → Store β} {Q : Except JournalError β → Hist → Prop} {h : Hist}
    (hp : Looks p) (hC : C h) (hg : Gives me allow p h.fs E P) (hok : ∀ a, P a → wp me allow C (f a) Q h)
    (herr : ∀ e, E e → Q (.error e) h) : wp me allow C (p >>= f) Q h :=
  wp_bind (wp_gives hp hC hg hok herr)

/-! ### Running without failures -/

variable (me) in
def Runs (p : Store α) (s : Fs) (r : Except JournalError α) : Prop := p.run.exec (Op.run me) s = (r, s)

theorem runs_pure {a : α} : Runs me (pure a) s (.ok a) := rfl

theorem runs_fail {e : JournalError} : Runs me (fail e : Store α) s (.error e) := rfl

theorem runs_fromExcept {x : Except JournalError α} : Runs me (fromExcept x) s x := rfl

theorem exec_bind_ok {p : Store α} {f : α → Store β} {s t : Fs} {a : α}
    (hp : p.run.exec (Op.run me) s = (.ok a, t)) :
    (p >>= f).run.exec (Op.run me) s = (f a).run.exec (Op.run me) t := by
  rw [run_bind, Prog.exec_bind, hp]

theorem exec_bind_error {p : Store α} {f : α → Store β} {s s' : Fs} {e : JournalError}
    (hp : p.run.exec (Op.run me) s = (.error e, s')) : (p >>= f).run.exec (Op.run me) s = (.error e, s') := by
  rw [run_bind, Prog.exec_bind, hp]; rfl

theorem runs_bind {p : Store α} {f : α → Store β} {a : α} {r : Except JournalError β} (hp : Runs me p s (.ok a))
    (hf : Runs me (f a) s r) : Runs me (p >>= f) s r := (exec_bind_ok hp).trans hf

theorem runs_bind_error {p : Store α} {f : α → Store β} {e : JournalError} (hp : Runs me p s (.error e)) :
    Runs me (p >>= f) s (.error e) := exec_bind_error hp

theorem exec_io_ok {o : Op} {wrap : Text → JournalError} {s t : Fs} {v : o.Val} (h : o.run me s = (.ok v, t)) :
    (io o wrap).run.exec (Op.run me) s = (.ok v, t) := by
  unfold io
  rw [ExceptT.run_mk, Prog.exec, h]
  rfl

theorem runs_io {o : Op} {wrap : Text → JournalError} {v : o.Val} (h : o.run me s = (.ok v, s)) :
    Runs me (io o wrap) s (.ok v) := exec_io_ok h

theorem runs_ite_pos {c : Prop} [Decidable c] {p q : Store α} {r : Except JournalError α} (h : c) (hp : Runs me p s r) :
    Runs me (if c then p else q) s r := by rw [if_pos h]; exact hp

theorem runs_ite_neg {c : Prop} [Decidable c] {p q : Store α} {r : Except JournalError α} (h : ¬c) (hq : Runs me q s r) :
    Runs me (if c then p else q) s r := by rw [if_neg h]; exact hq

theorem exec_mapErr_ok {f : JournalError → JournalError} {p : Store α} {s s' : Fs} {a : α}
    (hp : p.run.exec (Op.run me) s = (.ok a, s')) : (mapErr f p).run.exec (Op.run me) s = (.ok a, s') := by
  have h : (mapErr f p).run.exec (Op.run me) s = _ := Prog.exec_bind p.run _ s
  rw [hp] at h
  exact h

theorem runs_mapErr {f : JournalError → JournalError} {p : Store α} {a : α} (hp : Runs me p s (.ok a)) :
    Runs me (mapErr f p) s (.ok a) := exec_mapErr_ok hp

def Normal (me : Nat) (o : Op) (s : Fs) (r : o.Res) (s' : Fs) : Prop := o.run me s = (r, s')

variable (me) in
def Leads (p : Store α) (s : Fs) (q : Store α) (t : Fs) : Prop := Prog.Steps (Normal me) p.run s q.run t

theorem Leads.trans {p q r : Store α} {s t u : Fs} (h : Leads me p s q t) (h' : Leads me q t r u) :
    Leads me p s r u := Prog.Steps.trans h h'

theorem Leads.exec {p q : Store α} {s t : Fs} (h : Leads me p s q t) :
    p.run.exec (Op.run me) s = q.run.exec (Op.run me) t := Prog.Steps.exec_eq h

theorem leads_exec {p : Store α} {s t : Fs} {r : Except JournalError α} (h : p.run.exec (Op.run me) s = (r, t)) :
    Prog.Steps (Normal me) p.run s (.ret r) t := by
  have hs : Prog.Steps (Normal me) p.run s _ _ := Prog.steps_exec p.run s
  rwa [h] at hs

theorem leads_bind {p : Store α} {f : α → Store β} {s t : Fs} {a : α} (h : p.run.exec (Op.run me) s = (.ok a, t)) :
    Leads me (p >>= f) s (f a) t := by
  rw [Leads, run_bind]
  exact (leads_exec h).bind _

theorem Leads.bind {p q : Store α} {s t : Fs} (h : Leads me p s q t) (f : α → Store β) :
    Leads me (p >>= f) s (q >>= f) t := by
  rw [Leads, run_bind, run_bind]
  exact Prog.Steps.bind h _

end

end Store

/-! ## Scripts -/

theorem Op.run_withLocks {me : Nat} {o : Op} (h : o.mutates = true) (s : Fs) (l : List Lock) :
    o.run me (s.withLocks l) = ((o.run me s).1, (o.run me s).2.withLocks l) := by
  cases o with
  | openWritable n createNew app =>
    simp only [Op.mutates] at h
    subst h
    simp only [Op.run, Fs.withLocks_entries, Fs.withLocks_dir]
    cases he : s.entries n with
    | none =>
      by_cases hd : s.dir.isSome = true
      · simp only [hd, and_self, ite_true]; rfl
      · simp [hd]
    | some i => simp
  | mkdir =>
    simp only [Op.run, Fs.withLocks_dir, Fs.withLocks_dirInfo]
    cases hd : s.dir with
    | some d => rfl
    | none =>
      cases hp : s.dirInfo (.parent 0) with
      | none => rfl
      | some p =>
        by_cases hk : p.kind = .directory
        · simp only [hk, ite_true]; rfl
        · simp [hk]
  | chmodDir m => simp only [Op.run, Fs.withLocks_dir]; cases hd : s.dir <;> rfl
  | rename a b => simp only [Op.run, Fs.withLocks_entries]; cases he : s.entries a <;> rfl
  | remove n => simp only [Op.run, Fs.withLocks_entries]; cases he : s.entries n <;> rfl
  | syncDir | setLen | write | append | chmod | sync => rfl
  | _ => simp [Op.mutates] at h

theorem Op.effect_withLocks {me : Nat} {o : Op} (h : o.mutates = true) (s : Fs) (l : List Lock) (g : Progress) :
    o.effect me (s.withLocks l) g = (o.effect me s g).withLocks l := by
  cases g with
  | nothing => rfl
  | torn k => cases o <;> rfl
  | full => exact congrArg Prod.snd (Op.run_withLocks h s l)

theorem Op.run_create {me : Nat} {n : Name} {app : Bool} {s s' : Fs} {i : Nat}
    (h : (Op.openWritable n true app).run me s = (.ok i, s')) :
    s.entries n = none ∧ s.dir.isSome = true ∧ i = s.next ∧ s' = s.create n := by
  simp only [Op.run] at h
  cases he : s.entries n with
  | some i => simp [he, Op.ioError] at h
  | none =>
    by_cases hd : s.dir.isSome = true
    · simp only [he, hd, and_self, ite_true, Prod.mk.injEq] at h
      exact ⟨rfl, hd, (Except.ok.inj h.1).symm, h.2.symm⟩
    · simp [he, hd, Op.ioError] at h

theorem Op.run_mkdir {me : Nat} {s s' : Fs} {v : Unit} (h : Op.mkdir.run me s = (.ok v, s')) :
    s.dir = none ∧ s' = s.mkdir := by
  simp only [Op.run] at h
  cases hd : s.dir with
  | some d => simp [hd, Op.ioError] at h
  | none =>
    cases hp : s.dirInfo (.parent 0) with
    | none => simp [hd, hp, Op.ioError] at h
    | some p =>
      simp only [hd, hp] at h
      split at h
      · simp only [Prod.mk.injEq] at h; exact ⟨rfl, h.2.symm⟩
      · simp [Op.ioError] at h

theorem Op.run_chmodDir {me m : Nat} {s s' : Fs} {v : Unit} (h : (Op.chmodDir m).run me s = (.ok v, s')) :
    ∃ d, s.dir = some d ∧ s' = { s with dir := some { d with mode := m } } := by
  simp only [Op.run] at h
  cases hd : s.dir with
  | none => simp [hd, Op.ioError] at h
  | some d => simp only [hd, Prod.mk.injEq] at h; exact ⟨d, rfl, h.2.symm⟩

theorem Op.run_remove {me : Nat} {n : Name} {s s' : Fs} {v : Unit} (h : (Op.remove n).run me s = (.ok v, s')) :
    s' = s.unlink n := by
  simp only [Op.run] at h
  cases he : s.entries n with
  | none => simp [he, Op.ioError] at h
  | some i => simp only [he, Prod.mk.injEq] at h; exact h.2.symm

theorem Op.run_rename {me : Nat} {a b : Name} {s s' : Fs} {v : Unit} (h : (Op.rename a b).run me s = (.ok v, s')) :
    s' = s.rename a b := by
  simp only [Op.run] at h
  cases he : s.entries a with
  | none => simp [he, Op.ioError] at h
  | some i => simp only [he, Prod.mk.injEq] at h; exact h.2.symm

/-- A lock operation changes locks only, and records nothing. -/
theorem Op.step_lock {me : Nat} {allow : OpError → Prop} {o : Op} (ho : (∃ i ex, o = .tryLock i ex) ∨ ∃ i, o = .unlock i)
    {h h' : Hist} {r : o.Res} (hs : o.Step me allow h r h') : ∃ l, h' = ⟨h.fs.withLocks l, h.done⟩ := by
  obtain ⟨g, -, rfl⟩ := hs
  rcases ho with ⟨i, ex, rfl⟩ | ⟨i, rfl⟩
  · cases g with
    | nothing => exact ⟨h.fs.locks, by simp [Op.event, Op.mutates, Op.effect, Fs.withLocks]⟩
    | torn k => exact ⟨h.fs.locks, by simp [Op.event, Op.mutates, Op.effect, Op.torn, Fs.withLocks]⟩
    | full =>
      simp only [Op.event, Op.mutates, Op.effect, Op.run]
      split
      · exact ⟨h.fs.locks, by simp [Fs.withLocks]⟩
      · exact ⟨_, by simp; rfl⟩
  · cases g with
    | nothing => exact ⟨h.fs.locks, by simp [Op.event, Op.mutates, Op.effect, Fs.withLocks]⟩
    | torn k => exact ⟨h.fs.locks, by simp [Op.event, Op.mutates, Op.effect, Op.torn, Fs.withLocks]⟩
    | full => exact ⟨_, by simp [Op.event, Op.mutates, Op.effect, Op.run]; rfl⟩

def runAll (me : Nat) (script : List Op) (s : Fs) : Fs := script.foldl (fun s o => (o.run me s).2) s

def allDone (script : List Op) : List Event := script.map fun o => ⟨o, true, .full⟩

section
variable (me : Nat) (script : List Op) (s : Fs)

/-- The first `n` operations of the script are done and nothing else, but for locks. -/
structure At (n : Nat) (h : Hist) : Prop where
  le : n ≤ script.length
  done : h.done = allDone (script.take n)
  fs : ∃ l, h.fs = (runAll me (script.take n) s).withLocks l

/-- The first `n` operations are done and the next one failed, with some of its effect. -/
def Failed (n : Nat) (h : Hist) : Prop :=
  ∃ o g l, script[n]? = some o ∧ h.done = allDone (script.take n) ++ [⟨o, false, g⟩] ∧
    h.fs = (o.effect me (runAll me (script.take n) s) g).withLocks l

def Along (h : Hist) : Prop := (∃ n, At me script s n h) ∨ ∃ n, Failed me script s n h

variable {me script s}

theorem At.along {n : Nat} {h : Hist} (ha : At me script s n h) : Along me script s h := Or.inl ⟨n, ha⟩

theorem Failed.along {n : Nat} {h : Hist} (hf : Failed me script s n h) : Along me script s h := Or.inr ⟨n, hf⟩

theorem at_zero {h : Hist} (hd : h.done = []) (hf : ∃ l, h.fs = s.withLocks l) : At me script s 0 h :=
  ⟨Nat.zero_le _, by simp [hd, allDone], by simpa [runAll] using hf⟩

/-- Locks that come and go do not matter. -/
theorem Along.withLocks {h : Hist} (ha : Along me script s h) (l : List Lock) :
    Along me script s ⟨h.fs.withLocks l, h.done⟩ := by
  rcases ha with ⟨n, hle, hd, k, hf⟩ | ⟨n, o, g, k, ho, hd, hf⟩
  · exact Or.inl ⟨n, hle, hd, l, by rw [hf]; rfl⟩
  · exact Or.inr ⟨n, o, g, l, ho, hd, by rw [hf]; rfl⟩

theorem take_succ_of_getElem? {o : Op} {n : Nat} (ho : script[n]? = some o) :
    script.take (n + 1) = script.take n ++ [o] := by
  rw [List.take_add_one, ho]; rfl

/-- The operation before which a run along a script is. -/
theorem Along.last {t : Fs} {done : List Event} {e : Event} (h : Along me script s ⟨t, done ++ [e]⟩) :
    ∃ n, script[n]? = some e.op ∧ done = allDone (script.take n) := by
  rcases h with ⟨n, hle, hd, -⟩ | ⟨n, o, g, -, ho, hd, -⟩
  · have hd : done ++ [e] = allDone (script.take n) := hd
    cases n with
    | zero => simp [allDone] at hd
    | succ n =>
      have ho : script[n]? = some script[n] := List.getElem?_eq_getElem hle
      rw [take_succ_of_getElem? ho, allDone, List.map_append] at hd
      obtain ⟨hd, he⟩ := List.append_inj' hd rfl
      refine ⟨n, ?_, hd⟩
      rw [ho, (List.cons.inj he).1]
  · obtain ⟨hd, he⟩ := List.append_inj' (show done ++ [e] = _ from hd) rfl
    refine ⟨n, ?_, hd⟩
    rw [ho, (List.cons.inj he).1]

theorem runAll_snoc (me : Nat) (l : List Op) (o : Op) (s : Fs) : runAll me (l ++ [o]) s = (o.run me (runAll me l s)).2 := by
  simp [runAll, List.foldl_append]

/-- One operation of the script: it succeeds and the history is one step further, or it fails. -/
theorem At.step {allow : OpError → Prop} {n : Nat} {h h' : Hist} {o : Op} {r : o.Res} (ha : At me script s n h)
    (ho : script[n]? = some o) (hm : o.mutates = true) (hs : o.Step me allow h r h') :
    (∃ v, r = .ok v ∧ o.run me h.fs = (.ok v, h'.fs) ∧ At me script s (n + 1) h') ∨
      (∃ e, r = .error e ∧ Failed me script s n h') := by
  obtain ⟨g, hout, rfl⟩ := hs
  obtain ⟨hle, hdone, l, hfs⟩ := ha
  have hlt : n < script.length := (List.getElem?_eq_some_iff.mp ho).1
  have hnobs : ∀ t, o ≠ .observe t := by
    rintro t rfl; cases hm
  have hev : ∀ (x : o.Res) (g : Progress), o.event x g = [⟨o, x.isOk, g⟩] := fun x g => by rw [Op.event, if_pos hm]
  have hfail : ∀ (e : OpError) (g : Progress),
      Failed me script s n ⟨o.effect me h.fs g, h.done ++ o.event (.error e : o.Res) g⟩ := by
    intro e g
    refine ⟨o, g, l, ho, ?_, ?_⟩
    · rw [hev, hdone]; rfl
    · rw [hfs, Op.effect_withLocks hm]
  cases hout with
  | normal =>
    generalize hx : (o.run me h.fs).1 = x
    cases x with
    | error e => exact Or.inr ⟨e, rfl, hfail e _⟩
    | ok v =>
      refine Or.inl ⟨v, rfl, Prod.ext hx rfl, hlt, ?_, l, ?_⟩
      · rw [hev, hdone, take_succ_of_getElem? ho, allDone, allDone, List.map_append]; rfl
      · rw [take_succ_of_getElem? ho, runAll_snoc, hfs, Op.effect_withLocks hm]; rfl
  | failed e g _ => exact Or.inr ⟨e, rfl, hfail e g⟩
  | observed x ht _ => obtain ⟨t, ht⟩ := ht; exact absurd ht (hnobs t)

variable (me script s) in
def Todo (rest : List Op) (h : Hist) : Prop := ∃ n, At me script s n h ∧ script.drop n = rest

theorem Todo.along {rest : List Op} {h : Hist} (ht : Todo me script s rest h) : Along me script s h := by
  obtain ⟨n, ha, -⟩ := ht
  exact ha.along

theorem Todo.withLocks {rest : List Op} {h : Hist} (ht : Todo me script s rest h) (l : List Lock) :
    Todo me script s rest ⟨h.fs.withLocks l, h.done⟩ := by
  obtain ⟨n, ⟨hle, hd, k, hf⟩, hn⟩ := ht
  exact ⟨n, ⟨hle, hd, l, by rw [hf]; rfl⟩, hn⟩

theorem todo_start : Todo me script s script ⟨s, []⟩ :=
  ⟨0, at_zero rfl ⟨s.locks, rfl⟩, rfl⟩

theorem Todo.finished {h : Hist} (ht : Todo me script s [] h) : At me script s script.length h := by
  obtain ⟨n, ha, hn⟩ := ht
  have : n = script.length := Nat.le_antisymm ha.le (List.drop_eq_nil_iff.mp hn)
  exact this ▸ ha

theorem Todo.step {allow : OpError → Prop} {h h' : Hist} {o : Op} {rest : List Op} {r : o.Res}
    (ht : Todo me script s (o :: rest) h) (hm : o.mutates = true) (hs : o.Step me allow h r h') :
    (∃ v, r = .ok v ∧ o.run me h.fs = (.ok v, h'.fs) ∧ Todo me script s rest h') ∨
      (∃ e, r = .error e ∧ ∃ n, Failed me script s n h') := by
  obtain ⟨n, ha, hn⟩ := ht
  have ho : script[n]? = some o := by
    have := congrArg List.head? hn
    rwa [List.head?_drop] at this
  rcases ha.step ho hm hs with ⟨v, rfl, hv, ha'⟩ | ⟨e, rfl, hf⟩
  · refine Or.inl ⟨v, rfl, hv, n + 1, ha', ?_⟩
    rw [← List.tail_drop, hn]; rfl
  · exact Or.inr ⟨e, rfl, n, hf⟩

/-- Calling the script's next operation. -/
theorem Store.wp_io_todo {allow : OpError → Prop} {h : Hist} {o : Op} {rest : List Op} {wrap : Text → JournalError}
    {C : Hist → Prop} {Q : Except JournalError o.Val → Hist → Prop} (hC : ∀ h, Along me script s h → C h)
    (ht : Todo me script s (o :: rest) h) (hm : o.mutates = true)
    (hok : ∀ v h', o.run me h.fs = (.ok v, h'.fs) → Todo me script s rest h' → Q (.ok v) h')
    (herr : ∀ t h', Along me script s h' → Q (.error (wrap t)) h') : Store.wp me allow C (Store.io o wrap) Q h := by
  refine ⟨hC _ ht.along, fun r h' hs => ?_⟩
  rcases ht.step hm hs with ⟨v, rfl, hv, ht'⟩ | ⟨e, rfl, n, hf⟩
  · exact ⟨hC _ ht'.along, hok v h' hv ht'⟩
  · exact ⟨hC _ hf.along, herr e.text h' hf.along⟩

theorem Store.wp_io_todo_bind {allow : OpError → Prop} {h : Hist} {o : Op} {rest : List Op} {wrap : Text → JournalError}
    {β : Type} {f : o.Val → Store β} {C : Hist → Prop} {Q : Except JournalError β → Hist → Prop}
    (hC : ∀ h, Along me script s h → C h) (ht : Todo me script s (o :: rest) h) (hm : o.mutates = true)
    (hok : ∀ v h', o.run me h.fs = (.ok v, h'.fs) → Todo me script s rest h' → Store.wp me allow C (f v) Q h')
    (herr : ∀ t h', Along me script s h' → Q (.error (wrap t)) h') :
    Store.wp me allow C (Store.io o wrap >>= f) Q h :=
  Store.wp_bind (Store.wp_io_todo hC ht hm hok herr)

end

/-! ## What holds along a script -/

/-- Of a state that follows the events of a script: `I` holds at the start, after every operation and after every
failed one, and `F` at the end. -/
def Keeps {σ : Type} (eff : Event → σ → σ) (I F : σ → Prop) : List Op → σ → Prop
  | [], w => I w ∧ F w
  | o :: rest, w => I w ∧ (∀ g, I (eff ⟨o, false, g⟩ w)) ∧ Keeps eff I F rest (eff ⟨o, true, .full⟩ w)

section
variable {σ : Type} {eff : Event → σ → σ} {I F : σ → Prop}

def follow (eff : Event → σ → σ) (done : List Event) (w : σ) : σ := done.foldl (fun w e => eff e w) w

theorem Keeps.here {script : List Op} {w : σ} (hk : Keeps eff I F script w) : I w := by
  cases script with
  | nil => exact hk.1
  | cons o rest => exact hk.1

theorem Keeps.take {script : List Op} {w : σ} (hk : Keeps eff I F script w) (n : Nat) :
    Keeps eff I F (script.drop n) (follow eff (allDone (script.take n)) w) := by
  induction n generalizing script w with
  | zero => simpa [follow, allDone] using hk
  | succ n ih =>
    cases script with
    | nil => simpa [follow, allDone] using hk
    | cons o rest => exact ih hk.2.2

/-- A run along the script stays in the invariant. -/
theorem Keeps.along {me : Nat} {script : List Op} {s : Fs} {w : σ} {h : Hist} (hk : Keeps eff I F script w)
    (ha : Along me script s h) : I (follow eff h.done w) := by
  rcases ha with ⟨n, -, hd, -⟩ | ⟨n, o, g, l, ho, hd, -⟩
  · rw [hd]
    exact (hk.take n).here
  · have hn := hk.take n
    have hdrop : script.drop n = o :: script.drop (n + 1) := by
      rw [List.drop_eq_getElem?_toList_append, ho]; rfl
    rw [hdrop] at hn
    rw [hd, follow, List.foldl_append]
    exact hn.2.1 g

theorem Keeps.finish {me : Nat} {script : List Op} {s : Fs} {w : σ} {h : Hist} (hk : Keeps eff I F script w)
    (ha : At me script s script.length h) : F (follow eff h.done w) := by
  have hn := hk.take script.length
  rw [List.drop_length] at hn
  rw [ha.done]
  exact hn.2

theorem Keeps.mono {J G : σ → Prop} {script : List Op} {w : σ} (hk : Keeps eff I F script w) (h : ∀ w, I w → J w)
    (hF : ∀ w, I w → F w → G w) : Keeps eff J G script w := by
  induction script generalizing w with
  | nil => exact ⟨h w hk.1, hF w hk.1 hk.2⟩
  | cons o rest ih => exact ⟨h _ hk.1, fun g => h _ (hk.2.1 g), ih hk.2.2⟩

theorem Keeps.append {G : σ → Prop} {a b : List Op} {w : σ} (ha : Keeps eff I F a w)
    (hb : ∀ w, I w → F w → Keeps eff I G b w) : Keeps eff I G (a ++ b) w := by
  induction a generalizing w with
  | nil => exact hb w ha.1 ha.2
  | cons o rest ih => exact ⟨ha.1, ha.2.1, ih ha.2.2⟩

end

/-! ### The visible files along a script -/

def Event.onFs (me : Nat) (e : Event) (s : Fs) : Fs := e.op.effect me s e.progress

theorem follow_allDone (me : Nat) (script : List Op) (s : Fs) :
    follow (Event.onFs me) (allDone script) s = runAll me script s := by
  induction script generalizing s with
  | nil => rfl
  | cons o rest ih => exact ih _

theorem Along.fs_eq {me : Nat} {script : List Op} {s : Fs} {h : Hist} (ha : Along me script s h) :
    ∃ l, h.fs = (follow (Event.onFs me) h.done s).withLocks l := by
  rcases ha with ⟨n, -, hd, l, hf⟩ | ⟨n, o, g, l, -, hd, hf⟩
  · exact ⟨l, by rw [hf, hd, follow_allDone]⟩
  · refine ⟨l, ?_⟩
    rw [hf, hd, follow, List.foldl_append]
    exact congrArg (fun x => Fs.withLocks (o.effect me x g) l) (follow_allDone me _ s).symm

end Aizign
