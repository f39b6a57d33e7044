import Aizign.StoreReads
import Aizign.CommitSound

/-!
# The script of an append

Whatever fails, `append_with_ops` either changes nothing or gets some way along
one script of operations, fixed by what its reading part saw: PREPARED, the
record, the commit point through a temporary file, CLEAN.
-/

namespace Aizign

open Store

variable [SerdeJson]

def rewriteScript (i : Nat) (w : PublishWitness) : List Op := [.setLen i, .write i w.encode, .sync i]

def commitScript (stale : Bool) (temp : Nat) (point : CommitPoint) : List Op :=
  (if stale then [.remove .commitTemp] else []) ++ [.openWritable .commitTemp true false, .chmod temp 0o600,
    .write temp point.encode, .sync temp, .rename .commitTemp .commit, .syncDir .state]

def appendScript (s : Fs) (witness journal generation : Nat) (line : Bytes) (point : CommitPoint) : List Op :=
  rewriteScript witness (.prepared (generation + 1)) ++ ([.append journal line, .sync journal] ++
    (commitScript (s.entries .commitTemp).isSome s.next point ++ rewriteScript witness (.clean (generation + 1))))

def Classified (unknown : Bool) (e : JournalError) : Prop :=
  if unknown then ∃ d, e = .outcomeUnknown d else ∃ d, e = .unavailable d

omit [SerdeJson] in
theorem classified (unknown : Bool) (context : String) (t : Text) : Classified unknown (classify unknown context t) := by
  cases unknown <;> exact ⟨_, rfl⟩

section
variable {me : Nat} {allow : OpError → Prop} {script : List Op} {s₀ : Fs} {C : Hist → Prop}
  (hC : ∀ h, Along me script s₀ h → C h)

include hC in
omit [SerdeJson] in
theorem wp_rewriteWitness {i : Nat} {w : PublishWitness} {unknown : Bool} {rest : List Op} {h : Hist}
    {Q : Except JournalError Unit → Hist → Prop} (ht : Todo me script s₀ (rewriteScript i w ++ rest) h)
    (hok : ∀ h', h'.fs = runAll me (rewriteScript i w) h.fs → Todo me script s₀ rest h' → Q (.ok ()) h')
    (herr : ∀ e h', Along me script s₀ h' → Classified unknown e → Q (.error e) h') :
    Store.wp me allow C (rewriteWitness i w unknown) Q h := by
  unfold rewriteWitness rewriteFile
  refine wp_bind (wp_io_todo_bind hC ht rfl (fun _ h₁ hr₁ ht₁ => ?_) fun t h' ha => herr _ _ ha (classified ..))
  refine wp_io_todo hC ht₁ rfl (fun _ h₂ hr₂ ht₂ => ?_) fun t h' ha => herr _ _ ha (classified ..)
  refine wp_io_todo hC ht₂ rfl (fun _ h₃ hr₃ ht₃ => ?_) fun t h' ha => herr _ _ ha (classified ..)
  refine hok h₃ ?_ ht₃
  simp only [rewriteScript, runAll, List.foldl_cons, List.foldl_nil, hr₁, hr₂, hr₃]

include hC in
omit [SerdeJson] in
theorem wp_gives_todo {α β : Type} {p : Store α} {f : α → Store β} {Q : Except JournalError β → Hist → Prop} {h : Hist}
    {rest : List Op} {E : JournalError → Prop} {P : α → Prop} (hp : Looks p) (ht : Todo me script s₀ rest h)
    (hg : Gives me allow p h.fs E P) (hok : ∀ a, P a → Store.wp me allow C (f a) Q h)
    (herr : ∀ e, E e → Q (.error e) h) : Store.wp me allow C (p >>= f) Q h :=
  wp_gives_bind hp (hC h ht.along) hg hok herr

omit [SerdeJson] in
theorem gives_unavailable {α : Type} {p : Store α} {s : Fs} {P : α → Prop} {unknown : Bool} {context : String}
    {E : JournalError → Prop} (h : Gives me allow p s E P) :
    Gives me allow (mapErr (fun e => classify unknown context e.text) p) s (Classified unknown) P :=
  gives_mapErr h fun _ _ => classified ..

include hC in
omit [SerdeJson] in
theorem wp_openPrivateReplaceFile {rest : List Op} {h : Hist} {Q : Except JournalError Nat → Hist → Prop}
    (ht : Todo me script s₀ ((if (h.fs.entries .commitTemp).isSome then [.remove .commitTemp] else []) ++
      .openWritable .commitTemp true false :: .chmod h.fs.next 0o600 :: rest) h)
    (hok : ∀ h', h'.fs.next = h.fs.next + 1 → Todo me script s₀ rest h' → Q (.ok h.fs.next) h')
    (herr : ∀ e h', Along me script s₀ h' → Q (.error e) h') : Store.wp me allow C openPrivateReplaceFile Q h := by
  unfold openPrivateReplaceFile
  refine wp_gives_todo hC looks_privateParentOwner ht gives_privateParentOwner (fun owner hd => ?_)
    fun e _ => herr e h ht.along
  have hdir : h.fs.dir ≠ none := by
    obtain ⟨d, hd, -⟩ := hd.dir
    rw [hd]; simp
  refine wp_gives_todo hC (looks_pathEntryExists _) ht (gives_pathEntryExists _) (fun stale hs => ?_)
    fun e _ => herr e h ht.along
  have hs := hs hdir
  -- creating the file, from the history `h'` that has no temporary name
  have hcreate : ∀ h', h'.fs.next = h.fs.next →
      Todo me script s₀ (.openWritable .commitTemp true false :: .chmod h.fs.next 0o600 :: rest) h' →
      Store.wp me allow C (do
        let file ← io (.openWritable .commitTemp true false) (unavailableAt "cannot replace temporary file: ")
        io .hook (unavailableAt "cannot replace temporary file: ")
        io (.chmod file 0o600) (unavailableAt "cannot replace temporary file: ")
        checkOpenedPrivateFile file owner none
        return file) Q h' := by
    intro h' hnext ht'
    refine wp_io_todo_bind hC ht' rfl (fun file h₁ hr₁ ht₁ => ?_) fun t h'' ha => herr _ _ ha
    obtain ⟨-, -, hfile, hfs₁⟩ := Op.run_create hr₁
    replace hfile : file = h.fs.next := hfile.trans hnext
    subst hfile
    refine wp_gives_todo hC (looks_io rfl _) ht₁ (gives_io (P := fun _ => True) (E := fun _ => True) (by simp)
      (fun _ _ => trivial) fun _ => trivial) (fun _ _ => ?_) fun e _ => herr e h₁ ht₁.along
    refine wp_io_todo_bind hC ht₁ rfl (fun _ h₂ hr₂ ht₂ => ?_) fun t h'' ha => herr _ _ ha
    have hnext₂ : h₂.fs.next = h.fs.next + 1 := by
      have h₁₂ : h₂.fs = h₁.fs.setInode h.fs.next fun x => { x with mode := 0o600 } := (congrArg Prod.snd hr₂).symm
      rw [h₁₂, hfs₁, ← hnext]; rfl
    refine wp_gives_todo hC (looks_checkOpenedPrivateFile _ _ _) ht₂ (gives_checkOpenedPrivateFile _ _ _)
      (fun _ _ => wp_pure (hC _ ht₂.along) (hok h₂ hnext₂ ht₂)) fun e _ => herr e h₂ ht₂.along
  cases stale with
  | false =>
    rw [← hs] at ht
    exact hcreate h rfl ht
  | true =>
    rw [← hs] at ht
    refine wp_gives_todo hC (looks_inspectPrivateFile _ _) ht (gives_inspectPrivateFile hd _) (fun _ _ => ?_)
      fun e _ => herr e h ht.along
    refine wp_gives_todo hC (looks_io rfl _) ht (gives_io (P := fun _ => True) (E := fun _ => True) (by simp)
      (fun _ _ => trivial) fun _ => trivial) (fun _ _ => ?_) fun e _ => herr e h ht.along
    refine wp_gives_todo hC (looks_checkOpenedPrivateFile _ _ _) ht (gives_checkOpenedPrivateFile _ _ _)
      (fun _ _ => ?_) fun e _ => herr e h ht.along
    refine wp_io_todo_bind hC ht rfl (fun _ h₁ hr₁ ht₁ => hcreate h₁ ?_ ht₁) fun t h'' ha => herr _ _ ha
    rw [Op.run_remove hr₁]; rfl

def CommitRead (s : Fs) (point : CommitPoint) : Prop :=
  ∃ c, PrivateFile s .commit c ∧ CommitPoint.decode (s.content c) maxJournalBytes = .ok point

include hC in
theorem wp_publishCommit {profile : ProfileObservation} {point : CommitPoint} {unknown : Bool} {rest : List Op} {h : Hist}
    {Q : Except JournalError Unit → Hist → Prop}
    (ht : Todo me script s₀ (commitScript (h.fs.entries .commitTemp).isSome h.fs.next point ++ rest) h)
    (hok : ∀ h', CommitRead h'.fs point → h'.fs.next = h.fs.next + 1 → Todo me script s₀ rest h' → Q (.ok ()) h')
    (herr : ∀ e h', Along me script s₀ h' → Classified unknown e → Q (.error e) h') :
    Store.wp me allow C (publishCommit profile point unknown) Q h := by
  unfold publishCommit
  rw [commitScript, List.append_assoc] at ht
  refine wp_bind (wp_mapErr (wp_openPrivateReplaceFile hC ht (fun h₁ hn₁ ht₁ => ?_) fun e h' ha =>
    herr _ _ ha (classified ..)))
  refine wp_gives_todo hC (looks_mapErr (looks_requireSameProfile _ _)) ht₁
    (gives_unavailable (gives_requireSameProfile _ _)) (fun _ _ => ?_) fun e he => herr e _ ht₁.along he
  refine wp_io_todo_bind hC ht₁ rfl (fun _ h₂ hr₂ ht₂ => ?_) fun t h' ha => herr _ _ ha (classified ..)
  refine wp_io_todo_bind hC ht₂ rfl (fun _ h₃ hr₃ ht₃ => ?_) fun t h' ha => herr _ _ ha (classified ..)
  refine wp_io_todo_bind hC ht₃ rfl (fun _ h₄ hr₄ ht₄ => ?_) fun t h' ha => herr _ _ ha (classified ..)
  refine wp_io_todo_bind hC ht₄ rfl (fun _ h₅ hr₅ ht₅ => ?_) fun t h' ha => herr _ _ ha (classified ..)
  have hnext : h₅.fs.next = h.fs.next + 1 := by
    have h₁₂ : h₂.fs = h₁.fs.setContent _ _ := (congrArg Prod.snd hr₂).symm
    have h₂₃ : h₃.fs = h₂.fs := (congrArg Prod.snd hr₃).symm
    have h₃₄ : h₄.fs.next = h₃.fs.next := Op.run_rename hr₄ ▸ rfl
    have h₄₅ : h₅.fs = h₄.fs := (congrArg Prod.snd hr₅).symm
    rw [h₄₅, h₃₄, h₂₃, h₁₂, ← hn₁]; rfl
  refine wp_gives_todo hC (looks_mapErr (looks_openPrivateReadFile _)) ht₅
    (gives_unavailable (gives_openPrivateReadFile _)) (fun c hc => ?_) fun e he => herr e _ ht₅.along he
  refine wp_gives_todo hC (looks_mapErr (looks_requireSameProfile _ _)) ht₅
    (gives_unavailable (gives_requireSameProfile _ _)) (fun _ _ => ?_) fun e he => herr e _ ht₅.along he
  refine wp_gives_todo hC (looks_mapErr (looks_readCommitPoint _)) ht₅
    (gives_unavailable (gives_readCommitPoint _)) (fun decoded hd => ?_) fun e he => herr e _ ht₅.along he
  by_cases hne : decoded ≠ point
  · rw [if_pos hne]
    exact wp_fail (hC _ ht₅.along) (herr _ _ ht₅.along (classified ..))
  · rw [if_neg hne]
    have : decoded = point := not_not.mp hne
    subst this
    exact wp_pure (hC _ ht₅.along) (hok h₅ ⟨c, hc, hd⟩ hnext ht₅)

end

/-! ## The whole append -/

/-- What `append_with_ops` has read when it starts to publish. -/
structure AppendPlan (s : Fs) (event : WorkflowEvent) (time : BoundedTimestamp) where
  journal : Nat
  commit : Nat
  publish : Nat
  snap : Snapshot
  line : Text
  hlock : ∃ lock, PrivateFile s .lock lock
  hjournal : PrivateFile s .journal journal
  hcommit : PrivateFile s .commit commit
  hpublish : PrivateFile s .publish publish
  image : readImage (s.content journal) (s.content commit) (s.content publish) = .ok snap
  witness : PublishWitness.decode (s.content publish) = .ok (.clean snap.point.generation)
  bound : snap.point.generation ≠ maxJournalEntries + 1
  encoded : encodeEntry ⟨snap.entries.length + 1, time, event⟩ = .ok line

namespace AppendPlan

variable {s : Fs} {event : WorkflowEvent} {time : BoundedTimestamp} (plan : AppendPlan s event time)

def entry : JournalEntry := ⟨plan.snap.entries.length + 1, time, event⟩

def lineBytes : Bytes := utf8 (plan.line ++ ['\n'])

def generation : Nat := plan.snap.point.generation

def point : CommitPoint := CommitPoint.forPrefix (plan.snap.bytes ++ plan.lineBytes) plan.entry.seq

def script : List Op := appendScript s plan.publish plan.journal plan.generation plan.lineBytes plan.point

end AppendPlan

section
variable {me : Nat} {allow : OpError → Prop} {s : Fs} {event : WorkflowEvent} {time : BoundedTimestamp}

theorem wp_publishAppend {profile : ProfileObservation} (plan : AppendPlan s event time) {C : Hist → Prop}
    {Q : Except JournalError JournalEntry → Hist → Prop} (hC : ∀ h, Along me plan.script s h → C h)
    (hok : ∀ h, At me plan.script s plan.script.length h → plan.point.Valid maxJournalBytes → Q (.ok plan.entry) h)
    (herr : ∀ d h, Along me plan.script s h → Q (.error (.outcomeUnknown d)) h) :
    Store.wp me allow C (publishAppend profile plan.snap plan.publish plan.journal plan.entry plan.lineBytes) Q ⟨s, []⟩ := by
  have herr' : ∀ e h, Along me plan.script s h → Classified true e → Q (.error e) h := by
    rintro e h ha ⟨d, rfl⟩
    exact herr d h ha
  unfold publishAppend
  refine wp_bind (wp_rewriteWitness hC todo_start (fun h₁ hf₁ ht₁ => ?_) fun e h ha he => herr' e h ha he)
  refine wp_gives_todo hC (looks_mapErr (looks_verifyOpenedWitness _ _)) ht₁
    (gives_mapErr (gives_verifyOpenedWitness _ _) (E := Classified true) fun e _ => ⟨_, rfl⟩) (fun _ _ => ?_)
    fun e he => herr' e _ ht₁.along he
  refine wp_io_todo_bind hC ht₁ rfl (fun _ h₂ hr₂ ht₂ => ?_) fun t h ha => herr _ _ ha
  refine wp_io_todo_bind hC ht₂ rfl (fun _ h₃ hr₃ ht₃ => ?_) fun t h ha => herr _ _ ha
  -- the temporary name and the next inode are still those of `s`
  have hfs : h₃.fs.entries = s.entries ∧ h₃.fs.next = s.next := by
    have h₂₃ : h₃.fs = h₂.fs := (congrArg Prod.snd hr₃).symm
    have h₁₂ : h₂.fs = h₁.fs.setContent plan.journal _ := (congrArg Prod.snd hr₂).symm
    rw [h₂₃, h₁₂, hf₁]; exact ⟨rfl, rfl⟩
  rw [← hfs.1, ← hfs.2] at ht₃
  refine wp_bind (wp_publishCommit hC ht₃ (fun h₄ hc _ ht₄ => ?_) fun e h ha he => herr' e h ha he)
  obtain ⟨c, -, hdec⟩ := hc
  rw [← List.append_nil (rewriteScript _ _)] at ht₄
  refine wp_bind (wp_rewriteWitness hC ht₄ (fun h₅ _ ht₅ => ?_) fun e h ha he => herr' e h ha he)
  refine wp_gives_todo hC (looks_mapErr (looks_verifyOpenedWitness _ _)) ht₅
    (gives_mapErr (gives_verifyOpenedWitness _ _) (E := Classified true) fun e _ => ⟨_, rfl⟩) (fun _ _ => ?_)
    fun e he => herr' e _ ht₅.along he
  refine wp_gives_todo hC (looks_io rfl _) ht₅ (gives_io (P := fun _ => True) (E := Classified true) (by simp)
    (fun _ _ => trivial) fun _ => ⟨_, rfl⟩) (fun _ _ => ?_) fun e he => herr' e _ ht₅.along he
  exact wp_pure (hC _ ht₅.along) (hok h₅ ht₅.finished (CommitPoint.decode_valid hdec))

def AppendHist (me : Nat) (s : Fs) (event : WorkflowEvent) (time : BoundedTimestamp) (h : Hist) : Prop :=
  h = ⟨s, []⟩ ∨ ∃ plan : AppendPlan s event time, Along me plan.script s h

def AppendResult (me : Nat) (s : Fs) (event : WorkflowEvent) (time : BoundedTimestamp) :
    Except JournalError JournalEntry → Hist → Prop
  | .error e, h => h = ⟨s, []⟩ ∨ ∃ plan : AppendPlan s event time, Along me plan.script s h ∧ ∃ d, e = .outcomeUnknown d
  | .ok entry, h => ∃ plan : AppendPlan s event time, At me plan.script s plan.script.length h ∧ entry = plan.entry ∧
      plan.point.Valid maxJournalBytes

omit [SerdeJson] in
theorem PrivateFile.unique {s : Fs} {n : Name} {i j : Nat} (hi : PrivateFile s n i) (hj : PrivateFile s n j) : i = j :=
  Option.some.inj (hi.entry.symm.trans hj.entry)

theorem wp_appendWithOps (lock : Nat) :
    Store.wp me allow (AppendHist me s event time) (appendWithOps lock event time) (AppendResult me s event time)
      ⟨s, []⟩ := by
  have hstart : AppendHist me s event time ⟨s, []⟩ := Or.inl rfl
  have herr : ∀ e, AppendResult me s event time (.error e) ⟨s, []⟩ := fun e => Or.inl rfl
  unfold appendWithOps
  refine wp_gives_bind looks_openExistingPrivateDir hstart gives_openExistingPrivateDir (fun _ _ => ?_) fun e _ => herr e
  refine wp_gives_bind (looks_qualifyDirectory _) hstart (gives_qualifyDirectory _) (fun profile _ => ?_) fun e _ => herr e
  refine wp_gives_bind (looks_revalidateLock _ _) hstart (gives_revalidateLock _ _) (fun _ hlock => ?_) fun e _ => herr e
  refine wp_gives_bind (looks_readSnapshot _) hstart (gives_readSnapshot _) (fun snap hsnap => ?_) fun e _ => herr e
  obtain ⟨j, c, p, hj, hc, hp, himage⟩ := hsnap
  by_cases hb : snap.point.generation = maxJournalEntries + 1
  · rw [if_pos hb]
    exact wp_fail hstart (herr _)
  rw [if_neg hb]
  refine wp_gives_bind (looks_openPrivateWritableFile _ _) hstart (gives_openPrivateWritableFile _ _) (fun w hw => ?_)
    fun e _ => herr e
  obtain rfl := hp.unique hw
  refine wp_gives_bind (looks_requireSameProfile _ _) hstart (gives_requireSameProfile _ _) (fun _ _ => ?_)
    fun e _ => herr e
  refine wp_gives_bind (looks_readPublishWitness _) hstart (gives_readPublishWitness _) (fun current hcur => ?_)
    fun e _ => herr e
  by_cases hne : current ≠ PublishWitness.clean snap.point.generation
  · rw [if_pos hne]
    exact wp_fail hstart (herr _)
  rw [if_neg hne]
  have hclean := not_not.mp hne
  subst hclean
  refine wp_gives_bind (looks_openPrivateWritableFile _ _) hstart (gives_openPrivateWritableFile _ _) (fun j' hj' => ?_)
    fun e _ => herr e
  obtain rfl := hj.unique hj'
  refine wp_gives_bind (looks_requireSameProfile _ _) hstart (gives_requireSameProfile _ _) (fun _ _ => ?_)
    fun e _ => herr e
  refine wp_gives_bind (looks_fromExcept _) hstart (gives_fromExcept (P := fun line => encodeEntry _ = .ok line)
    (E := fun _ => True) (fun _ h => h) fun _ _ => trivial) (fun line hline => ?_) fun e _ => herr e
  let plan : AppendPlan s event time := ⟨j, c, p, snap, line, ⟨lock, hlock⟩, hj, hc, hp, himage, hcur, hb, hline⟩
  exact wp_publishAppend plan (fun h ha => Or.inr ⟨plan, ha⟩) (fun h ha hv => ⟨plan, ha, rfl, hv⟩)
    fun d h ha => Or.inr ⟨plan, ha, d, rfl⟩

end

end Aizign
