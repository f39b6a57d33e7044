import Aizign.StoreCrash

/-!
# An append under arbitrary failures

Every operation of an append may fail, and a failing write may leave any part
of its bytes. An error other than an unknown outcome means that nothing has
changed; otherwise at most one line was appended and only its commit point
published. A run is recorded call by call, to say what comes before the first
byte of a CLEAN document.
-/

namespace Aizign

open Store

/-! ## Recorded runs -/

structure Call where
  op : Op
  result : op.Res

/-- A step that also records the call. -/
def Op.Traced (me : Nat) (allow : OpError → Prop) (o : Op) (x : Hist × List Call) (r : o.Res) (x' : Hist × List Call) :
    Prop :=
  o.Step me allow x.1 r x'.1 ∧ x'.2 = x.2 ++ [⟨o, r⟩]

/-- The calls alone, whatever the operations answer. -/
def Op.Recorded (o : Op) (calls : List Call) (r : o.Res) (calls' : List Call) : Prop := calls' = calls ++ [⟨o, r⟩]

theorem Prog.Steps.hist {α : Type} {me : Nat} {allow : OpError → Prop} {p q : Prog Op.Res α} {x y : Hist × List Call}
    (h : Prog.Steps (Op.Traced me allow) p x q y) : Prog.Steps (Op.Step me allow) p x.1 q y.1 := by
  induction h with
  | refl => exact .refl
  | head hs _ ih => exact .head hs.1 ih

theorem Prog.Steps.calls {α : Type} {me : Nat} {allow : OpError → Prop} {p q : Prog Op.Res α} {x y : Hist × List Call}
    (h : Prog.Steps (Op.Traced me allow) p x q y) : Prog.Steps Op.Recorded p x.2 q y.2 := by
  induction h with
  | refl => exact .refl
  | head hs _ ih => exact .head hs.2 ih

/-- Programs that write to no file but a journal. -/
def Store.Quiet {α : Type} (p : Store α) : Prop := Prog.Uses (fun o => ∀ i b, o ≠ .write i b) p.run

section
variable {α β : Type}

theorem quiet_of_looks {p : Store α} (h : Looks p) : Quiet p := by
  refine Prog.Uses.mono (fun o ho i b he => ?_) h
  subst he
  cases ho

theorem quiet_io {o : Op} (h : ∀ i b, o ≠ .write i b) (wrap : Text → JournalError) : Quiet (io o wrap) := by
  refine ⟨h, fun r => ?_⟩
  cases r <;> trivial

theorem quiet_bind {p : Store α} {f : α → Store β} (hp : Quiet p) (hf : ∀ a, Quiet (f a)) : Quiet (p >>= f) := by
  rw [Quiet, run_bind]
  refine Prog.Uses.bind hp fun r => ?_
  cases r with
  | ok a => exact hf a
  | error e => trivial

theorem quiet_mapErr {f : JournalError → JournalError} {p : Store α} (hp : Quiet p) : Quiet (mapErr f p) := by
  refine Prog.Uses.bind hp fun r => ?_
  cases r <;> trivial

theorem quiet_openPrivateReplaceFile : Quiet openPrivateReplaceFile := by
  have hcreate : ∀ owner, Quiet (do
      let file ← io (.openWritable .commitTemp true false) (unavailableAt "cannot replace temporary file: ")
      io .hook (unavailableAt "cannot replace temporary file: ")
      io (.chmod file 0o600) (unavailableAt "cannot replace temporary file: ")
      checkOpenedPrivateFile file owner none
      return file : Store Nat) := fun owner =>
    quiet_bind (quiet_io (by simp) _) fun file => quiet_bind (quiet_io (by simp) _) fun _ =>
      quiet_bind (quiet_io (by simp) _) fun _ => quiet_of_looks (looks_bind (looks_checkOpenedPrivateFile _ _ _)
        fun _ => looks_pure _)
  refine quiet_bind (quiet_of_looks looks_privateParentOwner) fun owner =>
    quiet_bind (quiet_of_looks (looks_pathEntryExists _)) fun stale => ?_
  cases stale with
  | false => exact hcreate owner
  | true =>
    refine quiet_bind (quiet_of_looks (looks_inspectPrivateFile _ _)) fun _ => ?_
    refine quiet_bind (quiet_io (by simp) _) fun _ => ?_
    refine quiet_bind (quiet_of_looks (looks_checkOpenedPrivateFile _ _ _)) fun _ => ?_
    exact quiet_bind (quiet_io (by simp) _) fun _ => hcreate owner

end

/-! ### What a successful run has called -/

/-- Every run of `p` that returns `a` has made the calls of some `m` with `P a m`, in order. -/
def Store.Logs {α : Type} (p : Store α) (P : α → List Call → Prop) : Prop :=
  ∀ calls, Prog.wp Op.Recorded (fun _ => True) p.run (fun r calls' =>
    ∀ a, r = .ok a → ∃ m new, P a m ∧ calls' = calls ++ new ∧ m.Sublist new) calls

section
variable {α β : Type} {P : α → List Call → Prop} {R : β → List Call → Prop}

theorem logs_pure {a : α} (h : P a []) : Logs (pure a) P := by
  intro calls
  refine ⟨trivial, fun b hb => ⟨[], [], ?_, (List.append_nil _).symm, List.Sublist.slnil⟩⟩
  rwa [← Except.ok.inj hb]

theorem logs_fail {e : JournalError} : Logs (fail e : Store α) P :=
  fun _ => ⟨trivial, fun _ hb => by cases hb⟩

theorem logs_fromExcept {x : Except JournalError α} (h : ∀ a, x = .ok a → P a []) : Logs (fromExcept x) P :=
  fun _ => ⟨trivial, fun a ha => ⟨[], [], h a ha, (List.append_nil _).symm, List.Sublist.slnil⟩⟩

theorem logs_io {o : Op} {wrap : Text → JournalError} : Logs (io o wrap) fun v m => m = [⟨o, .ok v⟩] := by
  refine fun calls => ⟨trivial, fun r calls' hc => ?_⟩
  subst hc
  cases r with
  | error e => exact ⟨trivial, fun _ hb => by cases hb⟩
  | ok v =>
    refine ⟨trivial, fun a ha => ⟨_, _, rfl, rfl, ?_⟩⟩
    rw [← Except.ok.inj ha]

theorem logs_bind {p : Store α} {f : α → Store β} (hp : Logs p P)
    (hf : ∀ a m, P a m → Logs (f a) fun b m' => R b (m ++ m')) : Logs (p >>= f) R := by
  intro calls
  rw [run_bind]
  refine Prog.wp_bind (Prog.wp_mono (fun _ h => h) (fun r calls₁ _ h₁ => ?_) (hp calls))
  cases r with
  | error e => exact ⟨trivial, fun _ hb => by cases hb⟩
  | ok a =>
    obtain ⟨m, new, hm, rfl, hs⟩ := h₁ a rfl
    refine Prog.wp_mono (fun _ h => h) (fun r calls₂ _ h₂ b hb => ?_) (hf a m hm _)
    obtain ⟨m', new', hm', rfl, hs'⟩ := h₂ b hb
    exact ⟨m ++ m', new ++ new', hm', List.append_assoc .., hs.append hs'⟩

theorem logs_nothing (p : Store α) : Logs p fun _ m => m = [] := by
  have hany : ∀ (q : Prog Op.Res (Except JournalError α)) (calls₀ calls : List Call), calls₀ <+: calls →
      q.wp Op.Recorded (fun _ => True) (fun r calls' => ∀ a, r = .ok a →
        ∃ m new, m = [] ∧ calls' = calls₀ ++ new ∧ m.Sublist new) calls := by
    intro q calls₀
    induction q with
    | ret r => exact fun calls ⟨new, hn⟩ => ⟨trivial, fun a _ => ⟨[], new, rfl, hn.symm, List.nil_sublist _⟩⟩
    | call o k ih =>
      refine fun calls hp => ⟨trivial, fun r calls' hc => ih r calls' ?_⟩
      rw [hc]
      exact hp.trans (List.prefix_append _ _)
  exact fun calls => hany p.run calls calls (List.prefix_refl _)

/-- What `p` has called does not matter. -/
theorem logs_skip {p : Store α} {f : α → Store β} (hf : ∀ a, Logs (f a) R) : Logs (p >>= f) R := by
  refine logs_bind (logs_nothing p) fun a m hm => ?_
  rw [hm]
  exact hf a

theorem logs_ite {c : Prop} [Decidable c] {p q : Store α} (hp : c → Logs p P) (hq : ¬c → Logs q P) :
    Logs (if c then p else q) P := by
  by_cases h : c
  · rw [if_pos h]; exact hp h
  · rw [if_neg h]; exact hq h

theorem logs_mapErr {f : JournalError → JournalError} {p : Store α} (hp : Logs p P) : Logs (mapErr f p) P := by
  refine fun calls => Prog.wp_bind (Prog.wp_mono (fun _ h => h) (fun r calls' _ h' => ?_) (hp calls))
  cases r with
  | ok a => exact ⟨trivial, h'⟩
  | error e => exact ⟨trivial, fun _ hb => by cases hb⟩

/-- One call that matters and a rest that does not. -/
theorem logs_call {o : Op} {wrap : Text → JournalError} {f : o.Val → Store β}
    (hf : ∀ v, Logs (f v) fun b m => R b (⟨o, .ok v⟩ :: m)) : Logs (io o wrap >>= f) R := by
  refine logs_bind logs_io fun v m hm => ?_
  rw [hm]
  exact hf v

end

section

theorem logs_openPrivateReadFile (n : Name) : Logs (openPrivateReadFile n) fun i m => m = [⟨.openRead n, .ok i⟩] :=
  logs_skip fun _ => logs_skip fun _ => logs_call fun _ => logs_skip fun _ => logs_pure rfl

theorem logs_openPrivateWritableFile (n : Name) (append : Bool) :
    Logs (openPrivateWritableFile n false append) fun i m => m = [⟨.openWritable n false append, .ok i⟩] :=
  logs_skip fun _ => logs_skip fun _ => logs_call fun _ => logs_skip fun _ => logs_pure rfl

theorem logs_openPrivateReplaceFile :
    Logs openPrivateReplaceFile fun i m => m = [⟨.openWritable .commitTemp true false, .ok i⟩] := by
  refine logs_skip fun owner => logs_skip fun stale => ?_
  cases stale with
  | false => exact logs_call fun _ => logs_skip fun _ => logs_skip fun _ => logs_skip fun _ => logs_pure rfl
  | true =>
    refine logs_skip fun _ => logs_skip fun _ => logs_skip fun _ => logs_skip fun _ => ?_
    exact logs_call fun _ => logs_skip fun _ => logs_skip fun _ => logs_skip fun _ => logs_pure rfl

theorem logs_readBoundedFile (i maximum : Nat) (label : Text) :
    Logs (readBoundedFile i maximum label) fun b m => m = [⟨.read i (maximum + 1), .ok b⟩] :=
  logs_skip fun _ => logs_ite (fun _ => logs_fail) fun _ => logs_call fun _ =>
    logs_ite (fun _ => logs_fail) fun _ => logs_pure rfl

theorem logs_readCommitPoint [SerdeJson] (i : Nat) : Logs (readCommitPoint i) fun point m =>
    ∃ b, CommitPoint.decode b maxJournalBytes = .ok point ∧ m = [⟨.read i (maxCommitMetadataBytes + 1), .ok b⟩] := by
  refine logs_bind (logs_readBoundedFile _ _ _) fun b m hm => logs_fromExcept fun point hp => ?_
  exact ⟨b, hp, by rw [hm]; rfl⟩

theorem logs_verifyOpenedWitness [SerdeJson] (i : Nat) (w : PublishWitness) : Logs (verifyOpenedWitness i w) fun _ m =>
    ∃ b, PublishWitness.decode b = .ok w ∧ m = [⟨.read i (maxPublishMetadataBytes + 1), .ok b⟩] := by
  have hread : Logs (readPublishWitness i) fun w m =>
      ∃ b, PublishWitness.decode b = .ok w ∧ m = [⟨.read i (maxPublishMetadataBytes + 1), .ok b⟩] := by
    refine logs_bind (logs_readBoundedFile _ _ _) fun b m hm => logs_fromExcept fun w hw => ?_
    exact ⟨b, hw, by rw [hm]; rfl⟩
  refine logs_bind hread fun actual m hm => logs_ite (fun _ => logs_fail) fun he => logs_pure ?_
  rw [List.append_nil, ← not_not.mp he]
  exact hm

theorem logs_readCommittedPrefix (j : Nat) (point : CommitPoint) : Logs (readCommittedPrefix j point) fun b m =>
    m = [⟨.read j (point.committedBytes + 1), .ok b⟩] :=
  logs_skip fun _ => logs_ite (fun _ => logs_fail) fun _ => logs_ite (fun _ => logs_fail) fun _ =>
    logs_call fun _ => logs_ite (fun _ => logs_fail) fun _ => logs_pure rfl

theorem checkCommittedPrefix_bytes [SerdeJson] {b : Bytes} {point : CommitPoint} {snap : Snapshot}
    (h : checkCommittedPrefix b point = .ok snap) : snap.bytes = b := by
  unfold checkCommittedPrefix at h
  split at h
  · cases h
  · split at h
    · cases h
    · split at h
      · cases h
      · split at h
        · cases h
        · rw [← Except.ok.inj h]

/-- A snapshot's bytes were read from the journal. -/
theorem logs_readSnapshot [SerdeJson] (profile : ProfileObservation) : Logs (readSnapshot profile) fun snap m =>
    ∃ j n, m = [⟨.openRead .journal, .ok j⟩, ⟨.read j n, .ok snap.bytes⟩] := by
  refine logs_bind (logs_openPrivateReadFile _) fun j m hm => ?_
  subst hm
  refine logs_skip fun _ => logs_skip fun _ => logs_skip fun _ => logs_skip fun point => logs_skip fun _ =>
    logs_skip fun _ => logs_skip fun w => ?_
  refine logs_ite (fun _ => ?_) fun _ => logs_ite (fun _ => ?_) fun _ => logs_ite (fun _ => logs_fail) fun _ => ?_
  · exact logs_ite (fun _ => logs_fail) fun _ => logs_skip fun _ => logs_ite (fun _ => logs_fail) fun _ => logs_fail
  · exact logs_skip fun _ => logs_skip fun _ => logs_fail
  · refine logs_bind (logs_readCommittedPrefix j point) fun b m hm => logs_fromExcept fun snap hs => ?_
    subst hm
    rw [checkCommittedPrefix_bytes hs]
    exact ⟨j, _, rfl⟩

end

/-! ## What comes before a CLEAN document -/

structure Prerequisites where
  reader : Nat
  limit : Nat
  journal : Nat
  temp : Nat
  commit : Nat
  old : Bytes
  entry : JournalEntry

namespace Prerequisites

variable (q : Prerequisites)

def point : CommitPoint := CommitPoint.forPrefix (q.old ++ entryLine q.entry) q.entry.seq

def opened (i : Nat) : List Call :=
  [⟨.openRead .journal, .ok q.reader⟩, ⟨.read q.reader q.limit, .ok q.old⟩, ⟨.openWritable .publish false false, .ok i⟩,
    ⟨.openWritable .journal false true, .ok q.journal⟩]

def recorded : List Call := [⟨.append q.journal (entryLine q.entry), .ok ()⟩, ⟨.sync q.journal, .ok ()⟩]

end Prerequisites

def rewritten (i : Nat) (w : PublishWitness) (b : Bytes) : List Call :=
  [⟨.write i w.encode, .ok ()⟩, ⟨.sync i, .ok ()⟩, ⟨.read i (maxPublishMetadataBytes + 1), .ok b⟩]

def published (temp commit : Nat) (point : CommitPoint) (b : Bytes) : List Call :=
  [⟨.openWritable .commitTemp true false, .ok temp⟩, ⟨.write temp point.encode, .ok ()⟩, ⟨.sync temp, .ok ()⟩,
    ⟨.rename .commitTemp .commit, .ok ()⟩, ⟨.syncDir .state, .ok ()⟩, ⟨.openRead .commit, .ok commit⟩,
    ⟨.read commit (maxCommitMetadataBytes + 1), .ok b⟩]

/-- The calls hold, in order: the journal read and the files opened; PREPARED written, barriered and reread; the record
written and barriered; its commit point written to a temporary file, barriered, renamed, the directory barriered and
the commit point reread. -/
def Milestones [SerdeJson] (event : WorkflowEvent) (time : BoundedTimestamp) (i g : Nat) (calls : List Call) : Prop :=
  ∃ (q : Prerequisites) (b b' : Bytes), q.entry.event = event ∧ q.entry.at = time ∧
    PublishWitness.decode b = .ok (.prepared g) ∧ CommitPoint.decode b' maxJournalBytes = .ok q.point ∧
    (q.opened i ++ rewritten i (.prepared g) b ++ q.recorded ++ published q.temp q.commit q.point b').Sublist calls

/-- Before every write of a CLEAN document stand its milestones. -/
def CleanOrder [SerdeJson] (event : WorkflowEvent) (time : BoundedTimestamp) (calls : List Call) : Prop :=
  ∀ before i g r after, calls = before ++ ⟨.write i (PublishWitness.clean g).encode, r⟩ :: after →
    Milestones event time i g before

section
variable {event : WorkflowEvent} {time : BoundedTimestamp} {calls : List Call}

theorem CleanOrder.nil [SerdeJson] : CleanOrder event time [] := by
  intro before i g r after h
  simp at h

theorem CleanOrder.snoc [SerdeJson] (h : CleanOrder event time calls) {c : Call}
    (hc : ∀ i g r, c = ⟨.write i (PublishWitness.clean g).encode, r⟩ → Milestones event time i g calls) :
    CleanOrder event time (calls ++ [c]) := by
  intro before i g r after he
  rcases List.eq_nil_or_concat after with rfl | ⟨after, x, rfl⟩
  · obtain ⟨rfl, hx⟩ := List.append_inj' he rfl
    exact hc i g r (List.cons.inj hx).1
  · rw [List.concat_eq_append, ← List.cons_append, ← List.append_assoc] at he
    obtain ⟨rfl, -⟩ := List.append_inj' he rfl
    exact h before i g r after rfl

theorem CleanOrder.quiet [SerdeJson] (h : CleanOrder event time calls) {o : Op} (ho : ∀ i b, o ≠ .write i b) (r : o.Res) :
    CleanOrder event time (calls ++ [⟨o, r⟩]) :=
  h.snoc fun i _ _ he => absurd (congrArg Call.op he) (ho i _)

end

/-! ### Distinct documents -/

theorem Cst.text_inj {a b : Cst} (h : a.text = b.text) : a = b := by
  have ha := parse_cst a
  rw [h, parse_cst b] at ha
  exact (congrArg Doc.value (Option.some.inj ha)).symm

theorem decimal_inj {m n : Nat} (h : decimal m = decimal n) : m = n := by
  rw [← digitsValue_decimal m, h, digitsValue_decimal]

theorem jsonNat_inj {m n : Nat} (h : jsonNat m = jsonNat n) : m = n := by
  simp only [jsonNat, Cst.num.injEq, Num.mk.injEq] at h
  exact decimal_inj h

theorem PublishWitness.encode_inj {a b : PublishWitness} (h : a.encode = b.encode) : a = b := by
  have hc := Cst.text_inj (utf8_inj h)
  simp only [PublishDto.cst, jsonStruct, publishFields, presentMembers, jsonObject, jsonMembers, Cst.obj.injEq,
    Members.more.injEq, Members.last.injEq, true_and, and_true] at hc
  have h₁ : a.startedGeneration = b.startedGeneration := jsonNat_inj hc.2.1
  have h₂ : a.publishedGeneration = b.publishedGeneration := jsonNat_inj hc.2.2
  cases a
  cases b
  simp only at h₁ h₂
  rw [h₁, h₂]

theorem CommitPoint.encode_ne_witness (p : CommitPoint) (w : PublishWitness) : p.encode ≠ w.encode := by
  intro h
  have hc := Cst.text_inj (utf8_inj h)
  have hb : jsonBody "generation".toList ≠ jsonBody "startedGeneration".toList := by
    intro h
    have hl := congrArg List.length h
    rw [jsonBody, jsonBody, List.length_map, List.length_map] at hl
    exact absurd hl (by decide)
  simp only [PublishDto.cst, CommitDto.cst, jsonStruct, publishFields, commitFields, presentMembers, jsonObject,
    jsonMembers, Cst.obj.injEq, Members.more.injEq] at hc
  exact hb hc.2.2.2.2.2.2.2.1

theorem PublishWitness.prepared_ne_clean (g g' : Nat) : PublishWitness.prepared (g + 1) ≠ PublishWitness.clean g' := by
  intro h
  simp only [PublishWitness.prepared, PublishWitness.clean, PublishWitness.mk.injEq] at h
  omega

theorem PublishWitness.clean_inj {g g' : Nat} (h : PublishWitness.clean g = PublishWitness.clean g') : g = g' :=
  congrArg PublishWitness.startedGeneration h

/-! ## The order of an append -/

section
variable {event : WorkflowEvent} {time : BoundedTimestamp} {α β : Type}

variable (event time) in
/-- Every run of `p` after `calls` keeps the order, and one that returns `a` ends with `P a`. -/
def Store.Ordered [SerdeJson] (p : Store α) (P : α → List Call → Prop) (calls : List Call) : Prop :=
  Prog.wp Op.Recorded (CleanOrder event time) p.run (fun r calls' => ∀ a, r = .ok a → P a calls') calls

variable (event time) in
/-- The order was kept and the calls of `ms` were made. -/
structure Since [SerdeJson] (ms calls : List Call) : Prop where
  order : CleanOrder event time calls
  made : ms.Sublist calls

variable {P : α → List Call → Prop} {R : β → List Call → Prop} {ms calls : List Call}

theorem ordered_bind [SerdeJson] {p : Store α} {f : α → Store β}
    (hp : Ordered event time p (fun a c => Ordered event time (f a) R c) calls) :
    Ordered event time (p >>= f) R calls := by
  rw [Ordered, run_bind]
  refine Prog.wp_bind (Prog.wp_mono (fun _ h => h) (fun r c hc h => ?_) hp)
  cases r with
  | ok a => exact h a rfl
  | error e => exact ⟨hc, fun _ hb => by cases hb⟩

theorem ordered_pure [SerdeJson] {a : α} (h : CleanOrder event time calls) (hP : P a calls) :
    Ordered event time (pure a) P calls :=
  ⟨h, fun b hb => by rw [← Except.ok.inj hb]; exact hP⟩

/-- A program that writes to no file but a journal keeps the order. -/
theorem ordered_quiet [SerdeJson] {p : Store α} {L : α → List Call → Prop} (hq : Quiet p) (hl : Logs p L)
    (hs : Since event time ms calls) (hok : ∀ a m c, L a m → Since event time (ms ++ m) c → P a c) :
    Ordered event time p P calls := by
  have hinv : p.run.wp Op.Recorded (CleanOrder event time) (fun _ _ => True) calls := by
    refine Prog.wp_invariant (fun o ho c r c' hc h => ?_) hq hs.order
    rw [hc]
    exact h.quiet ho r
  refine Prog.wp_mono (fun _ h => h) (fun r c hc h a ha => ?_) (Prog.wp_and hinv (hl calls))
  obtain ⟨m, new, hm, rfl, hsub⟩ := h.2 a ha
  exact hok a m _ hm ⟨hc, hs.made.append hsub⟩

theorem ordered_skip [SerdeJson] {p : Store α} {f : α → Store β} (hq : Quiet p) (hs : Since event time ms calls)
    (hf : ∀ a c, Since event time ms c → Ordered event time (f a) R c) : Ordered event time (p >>= f) R calls := by
  refine ordered_bind (ordered_quiet hq (logs_nothing p) hs fun a m c hm hc => hf a c ?_)
  rw [hm, List.append_nil] at hc
  exact hc

theorem ordered_ite [SerdeJson] {c : Prop} [Decidable c] {p q : Store α} (hp : c → Ordered event time p P calls)
    (hq : ¬c → Ordered event time q P calls) : Ordered event time (if c then p else q) P calls := by
  by_cases h : c
  · rw [if_pos h]; exact hp h
  · rw [if_neg h]; exact hq h

theorem ordered_fail [SerdeJson] {e : JournalError} (h : CleanOrder event time calls) :
    Ordered event time (fail e : Store α) P calls :=
  ⟨h, fun _ hb => by cases hb⟩

theorem ordered_write [SerdeJson] {i : Nat} {b : Bytes} {wrap : Text → JournalError} {P : Unit → List Call → Prop}
    (hs : Since event time ms calls)
    (hb : ∀ g, b = (PublishWitness.clean g).encode → Milestones event time i g calls)
    (hok : ∀ c, Since event time (ms ++ [⟨.write i b, .ok ()⟩]) c → P () c) :
    Ordered event time (io (.write i b) wrap) P calls := by
  refine ⟨hs.order, fun r c hc => ?_⟩
  subst hc
  have hord : CleanOrder event time (calls ++ [⟨.write i b, r⟩]) := by
    refine hs.order.snoc fun i' g r' he => ?_
    have ho := congrArg Call.op he
    simp only [Op.write.injEq] at ho
    rw [← ho.1]
    exact hb g ho.2
  cases r with
  | error e => exact ⟨hord, fun _ hx => by cases hx⟩
  | ok v => exact ⟨hord, fun _ _ => hok _ ⟨hord, hs.made.append (List.Sublist.refl _)⟩⟩

theorem ordered_rewriteWitness [SerdeJson] {i : Nat} {w : PublishWitness} {unknown : Bool} {P : Unit → List Call → Prop}
    (hs : Since event time ms calls) (hw : ∀ g c, w = .clean g → Since event time ms c → Milestones event time i g c)
    (hok : ∀ c, Since event time (ms ++ [⟨.write i w.encode, .ok ()⟩, ⟨.sync i, .ok ()⟩]) c → P () c) :
    Ordered event time (rewriteWitness i w unknown) P calls := by
  refine ordered_bind (ordered_skip (quiet_io (by simp) _) hs fun _ c hc => ?_)
  refine ordered_write hc (fun g he => hw g c (PublishWitness.encode_inj he) hc) fun c hc => ?_
  refine ordered_quiet (quiet_io (by simp) _) logs_io hc fun _ m c hm hc => hok c ?_
  rw [hm, List.append_assoc] at hc
  exact hc

theorem ordered_publishCommit [SerdeJson] {profile : ProfileObservation} {point : CommitPoint} {unknown : Bool}
    {P : Unit → List Call → Prop} (hs : Since event time ms calls)
    (hok : ∀ t n b c, CommitPoint.decode b maxJournalBytes = .ok point →
      Since event time (ms ++ published t n point b) c → P () c) :
    Ordered event time (publishCommit profile point unknown) P calls := by
  refine ordered_bind (ordered_quiet (quiet_mapErr quiet_openPrivateReplaceFile)
    (logs_mapErr logs_openPrivateReplaceFile) hs fun temp m c hm hc => ?_)
  subst hm
  refine ordered_skip (quiet_of_looks (looks_mapErr (looks_requireSameProfile _ _))) hc fun _ c hc => ?_
  refine ordered_bind (ordered_write hc (fun g he => absurd he (point.encode_ne_witness _)) fun c hc => ?_)
  refine ordered_bind (ordered_quiet (quiet_io (by simp) _) logs_io hc fun _ m c hm hc => ?_)
  subst hm
  refine ordered_bind (ordered_quiet (quiet_io (by simp) _) logs_io hc fun _ m c hm hc => ?_)
  subst hm
  refine ordered_bind (ordered_quiet (quiet_io (by simp) _) logs_io hc fun _ m c hm hc => ?_)
  subst hm
  refine ordered_bind (ordered_quiet (quiet_of_looks (looks_mapErr (looks_openPrivateReadFile _)))
    (logs_mapErr (logs_openPrivateReadFile _)) hc fun opened m c hm hc => ?_)
  subst hm
  refine ordered_skip (quiet_of_looks (looks_mapErr (looks_requireSameProfile _ _))) hc fun _ c hc => ?_
  refine ordered_bind (ordered_quiet (quiet_of_looks (looks_mapErr (looks_readCommitPoint _)))
    (logs_mapErr (logs_readCommitPoint _)) hc fun decoded m c hm hc => ?_)
  obtain ⟨b, hb, rfl⟩ := hm
  refine ordered_ite (fun _ => ordered_fail hc.order) fun he => ordered_pure hc.order ?_
  rw [not_not.mp he] at hb
  refine hok temp opened b c hb ?_
  simpa only [published, List.append_assoc, List.cons_append, List.nil_append] using hc

theorem ordered_publishAppend [SerdeJson] {profile : ProfileObservation} {snap : Snapshot} {q : Prerequisites} {i : Nat}
    (hevent : q.entry.event = event) (htime : q.entry.at = time) (hold : snap.bytes = q.old)
    (hs : Since event time (q.opened i) calls) :
    Ordered event time (publishAppend profile snap i q.journal q.entry (entryLine q.entry)) (fun _ _ => True) calls := by
  refine ordered_bind (ordered_rewriteWitness hs (fun g _ he _ => ?_) fun c hc => ?_)
  · exact absurd he (PublishWitness.prepared_ne_clean _ _)
  refine ordered_bind (ordered_quiet (quiet_of_looks (looks_mapErr (looks_verifyOpenedWitness _ _)))
    (logs_mapErr (logs_verifyOpenedWitness _ _)) hc fun _ m c hm hc => ?_)
  obtain ⟨b, hb, rfl⟩ := hm
  refine ordered_bind (ordered_quiet (quiet_io (by simp) _) logs_io hc fun _ m c hm hc => ?_)
  subst hm
  refine ordered_bind (ordered_quiet (quiet_io (by simp) _) logs_io hc fun _ m c hm hc => ?_)
  subst hm
  rw [hold]
  refine ordered_bind (ordered_publishCommit hc fun temp commit b' c hb' hc => ?_)
  refine ordered_bind (ordered_rewriteWitness hc (fun g c he hc => ?_) fun c hc => ?_)
  · obtain rfl := PublishWitness.clean_inj he
    refine ⟨{ q with temp := temp, commit := commit }, b, b', hevent, htime, hb, hb', ?_⟩
    have hmade := hc.made
    simp only [List.append_assoc, List.cons_append, List.nil_append] at hmade
    simp only [rewritten, Prerequisites.recorded, List.append_assoc, List.cons_append, List.nil_append]
    exact hmade
  · refine ordered_skip (quiet_of_looks (looks_mapErr (looks_verifyOpenedWitness _ _))) hc fun _ c hc => ?_
    exact ordered_skip (quiet_io (by simp) _) hc fun _ c hc => ordered_pure hc.order trivial

/-- In every run of an append, whatever its calls answer, a CLEAN document comes after its milestones. -/
theorem ordered_appendWithOps [SerdeJson] (lock : Nat) :
    Ordered event time (appendWithOps lock event time) (fun _ _ => True) [] := by
  have h₀ : Since event time [] [] := ⟨.nil, List.Sublist.slnil⟩
  refine ordered_skip (quiet_of_looks looks_openExistingPrivateDir) h₀ fun _ c hc => ?_
  refine ordered_skip (quiet_of_looks (looks_qualifyDirectory _)) hc fun profile c hc => ?_
  refine ordered_skip (quiet_of_looks (looks_revalidateLock _ _)) hc fun _ c hc => ?_
  refine ordered_bind (ordered_quiet (quiet_of_looks (looks_readSnapshot _)) (logs_readSnapshot _) hc
    fun snap m c hm hc => ?_)
  obtain ⟨reader, limit, rfl⟩ := hm
  refine ordered_ite (fun _ => ordered_fail hc.order) fun _ => ?_
  refine ordered_bind (ordered_quiet (quiet_of_looks (looks_openPrivateWritableFile _ _))
    (logs_openPrivateWritableFile _ _) hc fun witness m c hm hc => ?_)
  subst hm
  refine ordered_skip (quiet_of_looks (looks_requireSameProfile _ _)) hc fun _ c hc => ?_
  refine ordered_skip (quiet_of_looks (looks_readPublishWitness _)) hc fun current c hc => ?_
  refine ordered_ite (fun _ => ordered_fail hc.order) fun _ => ?_
  refine ordered_bind (ordered_quiet (quiet_of_looks (looks_openPrivateWritableFile _ _))
    (logs_openPrivateWritableFile _ _) hc fun journal m c hm hc => ?_)
  subst hm
  refine ordered_skip (quiet_of_looks (looks_requireSameProfile _ _)) hc fun _ c hc => ?_
  let q : Prerequisites := ⟨reader, limit, journal, 0, 0, snap.bytes, ⟨snap.entries.length + 1, time, event⟩⟩
  refine ordered_bind (ordered_quiet (quiet_of_looks (looks_fromExcept _))
    (logs_fromExcept (P := fun line m => encodeEntry q.entry = .ok line ∧ m = []) fun _ h => ⟨h, rfl⟩) hc
    fun line m c hm hc => ?_)
  obtain ⟨hline, rfl⟩ := hm
  obtain ⟨-, -, rfl⟩ := encodeEntry_eq_ok hline
  exact ordered_publishAppend (q := q) rfl rfl rfl hc

end

/-! ## An append under failures -/

/-- At most the record line of this event was added to the journal, and only its commit point published. -/
def OneAppended [SerdeJson] (s t : Fs) (event : WorkflowEvent) (time : BoundedTimestamp) : Prop :=
  ∃ J C W snap, Shows s J C W ∧ CleanImage J C W snap ∧
    (∃ k, t.image .journal = some (J ++ (entryLine ⟨snap.entries.length + 1, time, event⟩).take k)) ∧
    (t.image .commit = some C ∨ t.image .commit = some (CommitPoint.forPrefix
      (J ++ entryLine ⟨snap.entries.length + 1, time, event⟩) (snap.entries.length + 1)).encode)

section
variable {me : Nat} {allow : OpError → Prop} {s : Fs} {event : WorkflowEvent} {time : BoundedTimestamp}

theorem AppendPlan.oneAppended [SerdeJson] (plan : AppendPlan s event time) {h : Hist} (ha : Along me plan.script s h) :
    OneAppended s h.fs event time := by
  obtain ⟨l, hl⟩ := ha.fs_eq
  have hclean := readImage_eq_ok.mp plan.image
  have himage : plan.Image (follow (Event.onFs me) h.done s) := plan.keeps_image.along ha
  obtain ⟨J', C', W', hs', hi⟩ := plan.image_clean plan.shows hclean himage
  refine ⟨_, _, _, plan.snap, plan.shows, hclean, ?_⟩
  rw [hl, Fs.image_withLocks, Fs.image_withLocks, hs'.journal, hs'.commit]
  cases hi with
  | before => exact ⟨⟨0, by rw [List.take_zero, List.append_nil]⟩, .inl rfl⟩
  | preparing k => exact ⟨⟨0, by rw [List.take_zero, List.append_nil]⟩, .inl rfl⟩
  | writing k => exact ⟨⟨k, rfl⟩, .inl rfl⟩
  | committed => exact ⟨⟨_, by rw [List.take_length]⟩, .inr rfl⟩
  | cleaning k => exact ⟨⟨_, by rw [List.take_length]⟩, .inr rfl⟩

/-- An append whose operations fail in any way, stopped anywhere: it has kept the order of its calls; it has changed
nothing, or appended at most its line; and an error other than an unknown outcome means that it has changed nothing. -/
theorem append_atomic_under_faults [SerdeJson] {lock : Nat} {q : Prog Op.Res (Except JournalError JournalEntry)}
    {x : Hist × List Call}
    (hrun : Prog.Steps (Op.Traced me allow) (appendWithOps lock event time).run (⟨s, []⟩, []) q x) :
    CleanOrder event time x.2 ∧ (x.1.fs = s ∨ OneAppended s x.1.fs event time) ∧
      ∀ e, q = .ret (.error e) → (∀ d, e ≠ .outcomeUnknown d) → x.1.fs = s := by
  have hwp : Store.wp me allow (AppendHist me s event time) (appendWithOps lock event time)
    (AppendResult me s event time) ⟨s, []⟩ := wp_appendWithOps lock
  refine ⟨Prog.wp_between (ordered_appendWithOps lock) hrun.calls, ?_, ?_⟩
  · rcases Prog.wp_between hwp hrun.hist with h | ⟨plan, ha⟩
    · exact .inl (congrArg Hist.fs h)
    · exact .inr (plan.oneAppended ha)
  · rintro e rfl hne
    rcases Prog.wp_result hwp hrun.hist with h | ⟨-, -, d, rfl⟩
    · exact congrArg Hist.fs h
    · exact absurd rfl (hne d)

end

theorem Prog.steps_traced {α : Type} {me : Nat} {allow : OpError → Prop} {p q : Prog Op.Res α} {s t : Fs}
    (h : Prog.Steps (Store.Normal me) p s q t) (d : List Event) (calls : List Call) :
    ∃ d' calls', Prog.Steps (Op.Traced me allow) p (⟨s, d⟩, calls) q (⟨t, d'⟩, calls') := by
  induction h generalizing d calls with
  | refl => exact ⟨d, calls, .refl⟩
  | head hs _ ih =>
    obtain ⟨d', calls', h'⟩ := ih _ _
    exact ⟨d', calls', .head ⟨Op.step_of_normal hs d, rfl⟩ h'⟩

/-- An append that has written its line and whose first call after that fails. -/
theorem finishAppend_fails [SerdeJson] (me : Nat) (profile : ProfileObservation) (point : CommitPoint) (p G : Nat)
    (entry : JournalEntry) (t : Fs) (d : List Event) (calls : List Call) :
    ∃ d' calls' detail, Prog.Steps (Op.Traced me fun _ => True) (finishAppend profile point p G entry).run (⟨t, d⟩, calls)
      (.ret (.error (.outcomeUnknown detail))) (⟨t, d'⟩, calls') :=
  ⟨_, _, _, .head (r := .error (.io [])) ⟨⟨.nothing, .failed _ _ trivial, rfl⟩, rfl⟩ .refl⟩

open Sample in
/-- The first append to a store without entries: without failures, and with one after the line is written. -/
theorem first_append_atomic :
    (∃ x, Prog.Steps (Op.Traced 1 fun _ => True) (appendWithOps 0 sampleEvent sampleTime).run (⟨newStore, []⟩, [])
        (.ret (.ok sampleEntry)) x ∧
      CleanOrder sampleEvent sampleTime x.2 ∧ (x.1.fs = newStore ∨ OneAppended newStore x.1.fs sampleEvent sampleTime)) ∧
    ∃ x detail, Prog.Steps (Op.Traced 1 fun _ => True) (appendWithOps 0 sampleEvent sampleTime).run (⟨newStore, []⟩, [])
        (.ret (.error (.outcomeUnknown detail))) x ∧
      x.1.fs.image .publish = some (PublishWitness.prepared 2).encode ∧
      CleanOrder sampleEvent sampleTime x.2 ∧ OneAppended newStore x.1.fs sampleEvent sampleTime := by
  have hb : ([] ++ entryLine sampleEntry).length ≤ maxJournalBytes :=
    Nat.le_trans (sampleEntry.length_line (by decide)) (by decide)
  have hentry : sampleEntry = ⟨([] : List JournalEntry).length + 1, sampleTime, sampleEvent⟩ := rfl
  constructor
  · obtain ⟨t, ht, -⟩ : ∃ t, (appendWithOps 0 sampleEvent sampleTime).run.exec (Op.run 1) newStore = (.ok sampleEntry, t) ∧ _ :=
      exec_appendWithOps newStore_clean (by decide) hentry hb
    obtain ⟨d, calls, hrun⟩ := Prog.steps_traced (leads_exec ht) [] []
    exact ⟨_, hrun, (append_atomic_under_faults hrun).1, (append_atomic_under_faults hrun).2.1⟩
  · obtain ⟨C, W, p, t, -, -, -, hshows, -, -, -, hleads⟩ := newStore_clean.written 1 (by decide) hentry
    obtain ⟨d, calls, hwritten⟩ := Prog.steps_traced hleads [] []
    obtain ⟨d', calls', detail, hfails⟩ := finishAppend_fails 1 t.profile
      (CommitPoint.forPrefix ([] ++ entryLine sampleEntry) sampleEntry.seq) p CommitPoint.empty.generation sampleEntry t d calls
    have hrun := hwritten.trans hfails
    refine ⟨_, _, hrun, hshows.publish, (append_atomic_under_faults hrun).1, ?_⟩
    rcases (append_atomic_under_faults hrun).2.1 with hsame | hone
    · -- the witness of the store without entries is CLEAN
      have hclean : t.image .publish = some (PublishWitness.clean 1).encode := by
        rw [show t = newStore from hsame]
        rfl
      have hdec := Option.some.inj (hclean.symm.trans hshows.publish)
      exact absurd hdec (by decide)
    · exact hone

end Aizign
