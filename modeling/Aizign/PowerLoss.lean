import Aizign.StorePhases
import Aizign.Processes
import Aizign.StoreMemory

/-!
# Known results under power loss

Opens, appends and loads of any processes, one call at a time, each of them
failing anywhere or stopped anywhere, with power losses in between. What a load
returned is known, and so is what an append acknowledged: every later load
returns it too, in its place.
-/

namespace Aizign

open Store

section
variable [SerdeJson]

inductive Known
  | read (es : List JournalEntry)
  | appended (e : JournalEntry)

/-- The entries `es` hold what is known, in its place. -/
def Known.Within (es : List JournalEntry) : Known → Prop
  | .read xs => xs <+: es
  | .appended e => 0 < e.seq ∧ es[e.seq - 1]? = some e

def Known.ofAppend : Except JournalError JournalEntry → List Known
  | .ok e => [.appended e]
  | .error _ => []

def Known.ofLoad : Except JournalError (List JournalEntry) → List Known
  | .ok es => [.read es]
  | .error _ => []

inductive StoreCall
  | openWriter
  | openReader
  | append (lock : Nat) (event : WorkflowEvent) (time : BoundedTimestamp)
  | load (lock : Nat)

def StoreCall.prog : StoreCall → Prog Op.Res (List Known)
  | .openWriter => Aizign.openWriter.run >>= fun _ => .ret []
  | .openReader => Aizign.openReader.run >>= fun _ => .ret []
  | .append lock event time => (appendWithOps lock event time).run >>= fun r => .ret (Known.ofAppend r)
  | .load lock => (loadCommitted lock).run >>= fun r => .ret (Known.ofLoad r)

/-- What a call has told its caller when it is left at `q`. -/
def told : Prog Op.Res (List Known) → List Known
  | .ret ks => ks
  | .call _ _ => []

/-- The runs from `d₀` with what they have made known: calls that `A` admits, carried out in part or whole, ends of
processes, power losses. -/
inductive Disk.Run (A : StoreCall → Prop) (d₀ : Disk) : List Known → Disk → Prop
  | start : Run A d₀ [] d₀
  | call {log : List Known} {d d' : Disk} {q : Prog Op.Res (List Known)} (me : Nat) {c : StoreCall} (hc : A c)
      (h : Run A d₀ log d) (hs : Prog.Steps (Op.DiskStep me fun _ => True) c.prog d q d') : Run A d₀ (log ++ told q) d'
  | exit {log : List Known} {d : Disk} (me : Nat) (h : Run A d₀ log d) :
      Run A d₀ log (d.withLocks (d.fs.release me).locks)
  | powerLoss {log : List Known} {d d' : Disk} (h : Run A d₀ log d) (hl : d.PowerLoss d') : Run A d₀ log d'

/-- What a call may tell from `es` known entries on, when it leaves `xs`. -/
inductive Learned (es xs : List JournalEntry) : List Known → Prop
  | nothing : Learned es xs []
  | read : Learned es xs [.read es]
  | appended {e : JournalEntry} (hs : e.seq = es.length + 1) (hx : xs = es ++ [e]) : Learned es xs [.appended e]

section
variable {me : Nat} {allow : OpError → Prop} {d d' : Disk} {es xs : List JournalEntry}

omit [SerdeJson] in
theorem Known.Within.extend {k : Known} (h : k.Within es) (hx : es <+: xs) : k.Within xs := by
  cases k with
  | read ys => exact List.IsPrefix.trans h hx
  | appended e =>
    obtain ⟨t, rfl⟩ := hx
    have hlt : e.seq - 1 < es.length := (List.getElem?_eq_some_iff.mp h.2).1
    exact ⟨h.1, (List.getElem?_append_left hlt).trans h.2⟩

omit [SerdeJson] in
theorem Learned.single {ks : List Known} (h : Learned es xs ks) {R : Known → Known → Prop} : ks.Pairwise R := by
  cases h with
  | nothing => exact .nil
  | read | appended => exact List.pairwise_singleton _ _

omit [SerdeJson] in
theorem Learned.within {ks : List Known} {k : Known} (h : Learned es xs ks) (hx : es <+: xs) (hk : k ∈ ks) :
    k.Within xs := by
  cases h with
  | nothing => cases hk
  | read =>
    rw [List.mem_singleton.mp hk]
    exact hx
  | appended hs he =>
    rw [List.mem_singleton.mp hk, he]
    refine ⟨hs ▸ Nat.succ_pos _, ?_⟩
    rw [hs, Nat.add_sub_cancel]
    exact List.getElem?_concat_length

omit [SerdeJson] in
theorem Learned.read_eq {ks : List Known} {ys : List JournalEntry} (h : Learned es xs ks) (hy : .read ys ∈ ks) :
    ys = es := by
  cases h with
  | nothing => cases hy
  | read => exact Known.read.inj (List.mem_singleton.mp hy)
  | appended => exact Known.noConfusion (List.mem_singleton.mp hy)

omit [SerdeJson] in
/-- What is known is within what a call leaves, and what it read holds all of it. -/
theorem Learned.log {log ks : List Known} (h : Learned es xs ks) (hx : es <+: xs) (hk : ∀ k ∈ log, k.Within es)
    (hlog : log.Pairwise fun k k' => ∀ es, k' = .read es → k.Within es) :
    (∀ k ∈ log ++ ks, k.Within xs) ∧ (log ++ ks).Pairwise fun k k' => ∀ es, k' = .read es → k.Within es := by
  refine ⟨fun k hk' => ?_, List.pairwise_append.mpr ⟨hlog, h.single, fun k hk₁ k' hk₂ ys hy => ?_⟩⟩
  · rcases List.mem_append.mp hk' with hk' | hk'
    · exact (hk k hk').extend hx
    · exact h.within hx hk'
  · rw [hy] at hk₂
    rw [h.read_eq hk₂]
    exact hk k hk₁

omit [SerdeJson] in
theorem Prog.wp_onDisk {C : Hist → Prop} {Q : List Known → Hist → Prop} {p q : Prog Op.Res (List Known)}
    (hw : p.wp (Op.Step me allow) C Q ⟨d.fs, []⟩) (hs : Prog.Steps (Op.DiskStep me allow) p d q d') :
    ∃ done, C ⟨d'.fs, done⟩ ∧ d' = (follow (Event.onDisk me) done d).withLocks d'.fs.locks ∧
      (told q = [] ∨ Q (told q) ⟨d'.fs, done⟩) := by
  have hstart : d = (follow (Event.onDisk me) [] d).withLocks d.fs.locks := rfl
  obtain ⟨done, hsteps, hd⟩ := hs.onHist hstart
  refine ⟨done, Prog.wp_between hw hsteps, hd, ?_⟩
  cases q with
  | ret ks => exact .inr (Prog.wp_result hw hsteps)
  | call o k => exact .inl rfl

theorem Disk.Phase.follow_withLocks {done : List Event} (h : (follow (Event.onDisk me) done d).Phase es)
    (hd : d' = (follow (Event.onDisk me) done d).withLocks d'.fs.locks) : d'.Phase es := by
  rw [hd]
  exact h.narrow (Disk.narrows_withLocks _ _)

theorem Disk.Phase.untouched (h : d.Phase es) {done : List Event} (hu : Untouched d.fs ⟨d'.fs, done⟩)
    (hd : d' = (follow (Event.onDisk me) done d).withLocks d'.fs.locks) : d'.Phase es := by
  obtain ⟨l, hl⟩ := hu
  obtain rfl : done = [] := congrArg Hist.done hl
  have h : (follow (Event.onDisk me) [] d).Phase es := h
  exact h.follow_withLocks hd

theorem Disk.Phase.opened (h : d.Phase es) {done : List Event}
    (ho : OpenHist me (OpenScript d.fs) d.fs ⟨d'.fs, done⟩)
    (hd : d' = (follow (Event.onDisk me) done d).withLocks d'.fs.locks) : d'.Phase es := by
  rcases ho with hu | ⟨script, hs, ha⟩
  · exact h.untouched hu hd
  · exact Disk.Phase.follow_withLocks ((h.openScript hs).along ha) hd

omit [SerdeJson] in
/-- Operations that change no file change locks at most. -/
theorem wp_untouched {α : Type} {p : Prog Op.Res α} (hp : p.Uses fun o => o.mutates = false) (s : Fs) :
    p.wp (Op.Step me allow) (Untouched s) (fun _ _ => True) ⟨s, []⟩ := by
  refine Prog.wp_invariant (fun o ho h r h' hs hu => ?_) hp (.start s)
  by_cases hl : o.looks = true
  · rw [Op.step_looks hl hs]
    exact hu
  · have hlock : (∃ i ex, o = .tryLock i ex) ∨ ∃ i, o = .unlock i := by
      cases o with
      | tryLock i ex => exact .inl ⟨i, ex, rfl⟩
      | unlock i => exact .inr ⟨i, rfl⟩
      | _ => simp [Op.looks, ho] at hl
    obtain ⟨l, rfl⟩ := Op.step_lock hlock hs
    exact hu.withLocks l

theorem uses_openReader : openReader.run.Uses fun o => o.mutates = false := by
  unfold openReader
  rw [run_bind]
  refine Prog.Uses.bind (looks_openReaderUnlocked.mono fun o => Op.mutates_looks) fun r => ?_
  cases r with
  | error e => trivial
  | ok i =>
    refine Prog.Uses.bind ?_ fun r => by cases r <;> trivial
    refine Prog.Uses.bind ⟨rfl, fun r => by cases r <;> trivial⟩ fun r => ?_
    cases r with
    | error e => trivial
    | ok acquired => cases acquired <;> trivial

/-! ### What a call does -/

theorem wp_openWriterCall (s : Fs) :
    (StoreCall.prog .openWriter).wp (Op.Step me allow) (OpenHist me (OpenScript s) s) (fun ks _ => ks = []) ⟨s, []⟩ :=
  Prog.wp_bind (Prog.wp_mono (fun _ h => h) (fun _ _ hC _ => ⟨hC, rfl⟩) (wp_openWriter s))

theorem wp_openReaderCall (s : Fs) :
    (StoreCall.prog .openReader).wp (Op.Step me allow) (Untouched s) (fun ks _ => ks = []) ⟨s, []⟩ :=
  Prog.wp_bind (Prog.wp_mono (fun _ h => h) (fun _ _ hC _ => ⟨hC, rfl⟩) (wp_untouched uses_openReader s))

theorem wp_loadCall (lock : Nat) (s : Fs) :
    (StoreCall.prog (.load lock)).wp (Op.Step me allow) (Untouched s)
      (fun ks _ => ks = [] ∨ ∃ snap, Reads s snap ∧ ks = [.read snap.entries]) ⟨s, []⟩ := by
  refine Prog.wp_bind (wp_gives (looks_loadCommitted lock) (.start s) (gives_loadCommitted_reads lock)
    (fun xs hxs => ⟨.start s, .inr ?_⟩) fun e _ => ⟨.start s, .inl rfl⟩)
  obtain ⟨snap, hr, rfl⟩ := hxs
  exact ⟨snap, hr, rfl⟩

theorem wp_appendCall (lock : Nat) (event : WorkflowEvent) (time : BoundedTimestamp) (s : Fs) :
    (StoreCall.prog (.append lock event time)).wp (Op.Step me allow) (AppendHist me s event time)
      (fun ks h => ks = [] ∨ ∃ e, ks = [.appended e] ∧ AppendResult me s event time (.ok e) h) ⟨s, []⟩ := by
  refine Prog.wp_bind (Prog.wp_mono (fun _ h => h) (fun r x hC hr => ⟨hC, ?_⟩) (wp_appendWithOps lock))
  cases r with
  | error e => exact .inl rfl
  | ok e => exact .inr ⟨e, rfl, hr⟩

theorem Disk.Phase.call (h : d.Phase es) {c : StoreCall} {q : Prog Op.Res (List Known)}
    (hs : Prog.Steps (Op.DiskStep me allow) c.prog d q d') :
    ∃ xs, es <+: xs ∧ d'.Phase xs ∧ Learned es xs (told q) := by
  have hsame (hp : d'.Phase es) (ht : told q = [] ∨ told q = [.read es]) :
      ∃ xs, es <+: xs ∧ d'.Phase xs ∧ Learned es xs (told q) := by
    refine ⟨es, List.prefix_refl es, hp, ?_⟩
    rcases ht with ht | ht
    · rw [ht]
      exact .nothing
    · rw [ht]
      exact .read
  cases c with
  | openWriter =>
    obtain ⟨done, ho, hd, ht⟩ := Prog.wp_onDisk (wp_openWriterCall d.fs) hs
    exact hsame (h.opened ho hd) (.inl (ht.elim id id))
  | openReader =>
    obtain ⟨done, hu, hd, ht⟩ := Prog.wp_onDisk (wp_openReaderCall d.fs) hs
    exact hsame (h.untouched hu hd) (.inl (ht.elim id id))
  | load lock =>
    obtain ⟨done, hu, hd, ht⟩ := Prog.wp_onDisk (wp_loadCall lock d.fs) hs
    refine hsame (h.untouched hu hd) ?_
    rcases ht with ht | ht | ⟨snap, hr, ht⟩
    · exact .inl ht
    · exact .inl ht
    · rw [(h.reads hr).1] at ht
      exact .inr ht
  | append lock event time =>
    obtain ⟨done, hu, hd, ht⟩ := Prog.wp_onDisk (wp_appendCall lock event time d.fs) hs
    have hnothing (ht : told q = []) : ∃ xs, es <+: xs ∧ d'.Phase xs ∧ Learned es xs (told q) := by
      rcases hu with hu | ⟨plan, ha⟩
      · exact hsame (h.untouched ⟨d.fs.locks, hu⟩ hd) (.inl ht)
      · rcases (h.appendScript plan).2.along ha with hp | hp
        · exact hsame (hp.follow_withLocks hd) (.inl ht)
        · exact ⟨_, List.prefix_append es _, hp.follow_withLocks hd, ht ▸ .nothing⟩
    rcases ht with ht | ht | ⟨e, ht, plan, hat, rfl, -⟩
    · exact hnothing ht
    · exact hnothing ht
    · have hscript : _ ∧ Keeps (Event.onDisk me) _ _ plan.script d := h.appendScript plan
      exact ⟨_, List.prefix_append es _, (hscript.2.finish hat).follow_withLocks hd, ht ▸ .appended hscript.1 rfl⟩

theorem Disk.Phase.start {s : Fs} (hn : ∀ n, s.entries n = none) : (Disk.settled s).Phase [] := by
  have hno (n : Name) (i : Nat) : some i ∉ (Disk.settled s).bound n := by
    intro hi
    have hi : some i = s.entries n := hi
    rw [hn n] at hi
    cases hi
  by_cases hd : s.dir = none
  · refine .absent ⟨hd, fun n x hx => ?_⟩ rfl
    have hx : x = s.entries n := hx
    rw [hx, hn n]
  · exact .young ⟨hd, fun i hi => absurd hi (hno _ i), fun i hi => absurd hi (hno _ i)⟩ rfl

/-- What is known of a run: the phase of its disk, with entries that hold everything told so far, and that every load
returned what was told before it. -/
theorem Disk.Run.known {A : StoreCall → Prop} {d₀ : Disk} (h₀ : d₀.Phase es) {log : List Known}
    (h : Disk.Run A d₀ log d) :
    (∃ es, d.Phase es ∧ ∀ k ∈ log, k.Within es) ∧ log.Pairwise fun k k' => ∀ es, k' = .read es → k.Within es := by
  induction h with
  | start => exact ⟨⟨es, h₀, fun k hk => nomatch hk⟩, .nil⟩
  | call me hc h hs ih =>
    obtain ⟨⟨es, hp, hk⟩, hlog⟩ := ih
    obtain ⟨xs, hx, hp', hl⟩ := hp.call hs
    obtain ⟨hk', hlog'⟩ := hl.log hx hk hlog
    exact ⟨⟨xs, hp', hk'⟩, hlog'⟩
  | exit me h ih =>
    obtain ⟨⟨es, hp, hk⟩, hlog⟩ := ih
    exact ⟨⟨es, hp.narrow (Disk.narrows_withLocks _ _), hk⟩, hlog⟩
  | powerLoss h hl ih =>
    obtain ⟨⟨es, hp, hk⟩, hlog⟩ := ih
    exact ⟨⟨es, hp.narrow hl.narrows, hk⟩, hlog⟩

end

/-- A store that can be read, with nothing left to make durable. -/
theorem Disk.Phase.existing {s : Fs} {snap : Snapshot} (h : Reads s snap) : (Disk.settled s).Phase snap.entries := by
  obtain ⟨j, c, p, hj, -, hp, himage⟩ := h
  obtain ⟨t, ht, hes⟩ := (readImage_eq_ok.mp himage).text
  have hnames {n : Name} {i : Nat} (hi : s.entries n = some i) : (Disk.settled s).Names n i := by
    intro x hx
    have hx : x = s.entries n := hx
    rw [hx, hi]
  exact .kept (J := s.content j) ⟨hj.dir, hnames hj.entry, hnames hp.entry, fun b hb => hb, t, ht, hes⟩

section
variable {me : Nat}

omit [SerdeJson] in
/-- What happens without failures happens on every disk that shows these files. -/
theorem Prog.Steps.onDisk {α : Type} {p q : Prog Op.Res α} {s t : Fs} (h : Prog.Steps (Normal me) p s q t) {d : Disk}
    (hd : d.fs = s) : ∃ d', Prog.Steps (Op.DiskStep me fun _ => True) p d q d' ∧ d'.fs = t := by
  induction h generalizing d with
  | refl => exact ⟨d, .refl, hd⟩
  | @head o k s s₁ t r q hs _ ih =>
    have hrun : o.run me d.fs = (r, s₁) := by
      rw [hd]
      exact hs
    obtain ⟨d', hsteps, hd'⟩ := ih (d := o.onDisk me r.isOk .full d) (congrArg Prod.snd hrun)
    refine ⟨d', .head ⟨.full, ?_, rfl⟩ hsteps, hd'⟩
    have hr : (o.run me d.fs).1 = r := congrArg Prod.fst hrun
    rw [← hr]
    exact .normal

theorem exec_openCall {s t : Fs} {l : Nat} (h : openWriter.run.exec (Op.run me) s = (.ok l, t)) :
    (StoreCall.prog .openWriter).exec (Op.run me) s = ([], t) := by
  unfold StoreCall.prog
  rw [Prog.exec_bind, h]
  rfl

theorem exec_appendCall {s t : Fs} {l : Nat} {event : WorkflowEvent} {time : BoundedTimestamp}
    {r : Except JournalError JournalEntry} (h : (appendWithOps l event time).run.exec (Op.run me) s = (r, t)) :
    (StoreCall.prog (.append l event time)).exec (Op.run me) s = (Known.ofAppend r, t) := by
  unfold StoreCall.prog
  rw [Prog.exec_bind, h]
  rfl

theorem exec_loadCall {s : Fs} {l : Nat} {r : Except JournalError (List JournalEntry)} (h : Runs me (loadCommitted l) s r) :
    (StoreCall.prog (.load l)).exec (Op.run me) s = (Known.ofLoad r, s) := by
  have h : (loadCommitted l).run.exec (Op.run me) s = (r, s) := h
  unfold StoreCall.prog
  rw [Prog.exec_bind, h]
  rfl

/-- A call without failures extends a run. -/
theorem Disk.Run.exec {A : StoreCall → Prop} {d₀ d : Disk} {log ks : List Known} {c : StoreCall} {t : Fs}
    (h : Disk.Run A d₀ log d) (hc : A c) (me : Nat) (he : c.prog.exec (Op.run me) d.fs = (ks, t)) :
    ∃ d', Disk.Run A d₀ (log ++ ks) d' ∧ d'.fs = t := by
  have hs : Prog.Steps (Normal me) c.prog d.fs _ _ := Prog.steps_exec c.prog d.fs
  rw [he] at hs
  obtain ⟨d', hsteps, hd'⟩ := hs.onDisk rfl
  exact ⟨d', h.call me hc hsteps, hd'⟩

omit [SerdeJson] in
/-- A restart in which every file of `t` holds what it does in `s`. -/
theorem Fs.restart_same {s t : Fs} (i : Nat) {b : Bytes} (ht : t = s.setContent i b)
    (h : ∀ n k, s.entries n = some k → k < t.next) : t.restart s.entries s.content h = s.withLocks [] := by
  subst ht
  have hinodes : ((s.setContent i b).restart s.entries s.content h).inodes = s.inodes := by
    funext k
    show { (s.setContent i b).inodes k with content := (s.inodes k).content } = s.inodes k
    by_cases hk : k = i <;> simp [Fs.setContent, Fs.setInode, hk]
  rw [Fs.withLocks, ← hinodes]
  rfl

end

end

end Aizign
