import Aizign.Workflow
import Mathlib.Data.List.Perm.Basic
import Mathlib.Data.List.Nodup

/-!
# Replay is set-like

The entries of a replayed state stand in the order of their ids and are a
permutation of the events, so neither the order of the events nor the point at
which replay is resumed can be seen in the result.
-/

namespace Aizign

def WorkflowState.len (s : WorkflowState) : Nat := s.entries.length

/-! ## The entries in order -/

def IdBefore (a b : EventId × WorkflowSignal) : Prop := compare a.1.value b.1.value = .lt

theorem IdBefore.trans {a b c : EventId × WorkflowSignal} (h : IdBefore a b) (h' : IdBefore b c) : IdBefore a c :=
  Std.TransCmp.lt_trans h h'

theorem IdBefore.asymm {a b : EventId × WorkflowSignal} (h : IdBefore a b) (h' : IdBefore b a) : False := by
  have hself : compare a.1.value a.1.value = .eq := Std.ReflCmp.compare_self
  rw [show compare a.1.value a.1.value = .lt from h.trans h'] at hself
  cases hself

theorem eventId_eq {i j : EventId} (h : compare i j = .eq) : i = j := by
  have hv : i.value = j.value := Std.LawfulEqOrd.eq_of_compare h
  obtain ⟨v, hi⟩ := i
  obtain ⟨w, hj⟩ := j
  simp only at hv
  subst hv
  rfl

theorem insertEntry_perm {i : EventId} (s : WorkflowSignal) {es : List (EventId × WorkflowSignal)}
    (h : ∀ e ∈ es, e.1 ≠ i) : (insertEntry i s es).Perm ((i, s) :: es) := by
  induction es with
  | nil => exact List.Perm.refl _
  | cons e es ih =>
    rw [insertEntry]
    cases hc : compare i e.1 with
    | lt => exact List.Perm.refl _
    | eq => exact absurd (eventId_eq hc).symm (h e (List.mem_cons_self ..))
    | gt =>
      have hes := ih fun x hx => h x (List.mem_cons_of_mem _ hx)
      exact (hes.cons e).trans (List.Perm.swap ..)

theorem insertEntry_pairwise {i : EventId} (s : WorkflowSignal) {es : List (EventId × WorkflowSignal)}
    (h : ∀ e ∈ es, e.1 ≠ i) (hs : es.Pairwise IdBefore) : (insertEntry i s es).Pairwise IdBefore := by
  induction es with
  | nil => exact List.pairwise_singleton ..
  | cons e es ih =>
    obtain ⟨he, hes⟩ := List.pairwise_cons.mp hs
    rw [insertEntry]
    cases hc : compare i e.1 with
    | lt =>
      have hie : IdBefore (i, s) e := hc
      refine List.pairwise_cons.mpr ⟨fun x hx => ?_, hs⟩
      rcases List.mem_cons.mp hx with rfl | hx
      · exact hie
      · exact hie.trans (he x hx)
    | eq => exact absurd (eventId_eq hc).symm (h e (List.mem_cons_self ..))
    | gt =>
      have hne : ∀ x ∈ es, x.1 ≠ i := fun x hx => h x (List.mem_cons_of_mem _ hx)
      refine List.pairwise_cons.mpr ⟨fun x hx => ?_, ih hne hes⟩
      rcases List.mem_cons.mp ((insertEntry_perm s hne).mem_iff.mp hx) with rfl | hx
      · exact Std.OrientedCmp.lt_of_gt hc
      · exact he x hx

/-! ## The state after some events -/

def WorkflowEvent.entry (e : WorkflowEvent) : EventId × WorkflowSignal := (e.eventId, e.signal)

/-- The entries of a state are those of the events, in the order of their ids. -/
structure Collected (s : WorkflowState) (events : List WorkflowEvent) : Prop where
  ordered : s.entries.Pairwise IdBefore
  perm : s.entries.Perm (events.map WorkflowEvent.entry)

theorem collected_new : Collected WorkflowState.new [] := ⟨List.Pairwise.nil, List.Perm.refl _⟩

theorem ne_of_accepted_none {s : WorkflowState} {i : EventId} (h : s.accepted i = none) : ∀ e ∈ s.entries, e.1 ≠ i := by
  intro e he hi
  rw [WorkflowState.accepted, Option.map_eq_none_iff, List.find?_eq_none] at h
  exact h e he (decide_eq_true hi)

theorem Collected.apply {s s' : WorkflowState} {events : List WorkflowEvent} (h : Collected s events) {e : WorkflowEvent}
    (he : s.apply e = .ok s') : Collected s' (events ++ [e]) := by
  have hnone := ne_of_accepted_none ((s.apply_ok_iff e).mp ⟨s', he⟩)
  obtain ⟨signal⟩ := e
  simp only [WorkflowState.apply] at he
  split at he
  · cases he
  · cases he
    refine ⟨insertEntry_pairwise signal hnone h.ordered, (insertEntry_perm signal hnone).trans ?_⟩
    rw [List.map_append]
    exact (h.perm.cons _).trans (List.perm_append_singleton _ _).symm

theorem collected_foldlM {s s' : WorkflowState} {before events : List WorkflowEvent} (h : Collected s before)
    (hf : events.foldlM WorkflowState.apply s = .ok s') : Collected s' (before ++ events) := by
  induction events generalizing s before with
  | nil =>
    cases hf
    rw [List.append_nil]
    exact h
  | cons e events ih =>
    rw [List.foldlM_cons] at hf
    cases he : s.apply e with
    | error x => rw [he] at hf; cases hf
    | ok s₁ =>
      rw [he] at hf
      have := ih (h.apply he) hf
      rwa [List.append_assoc] at this

theorem collected_of_replay {events : List WorkflowEvent} {s : WorkflowState}
    (h : WorkflowState.replay events = .ok s) : Collected s events := collected_foldlM collected_new h

/-- Only one state has given events. -/
theorem Collected.unique {s s' : WorkflowState} {events : List WorkflowEvent} (h : Collected s events)
    (h' : Collected s' events) : s = s' := by
  obtain ⟨es⟩ := s
  obtain ⟨es'⟩ := s'
  congr 1
  refine List.Perm.eq_of_pairwise (fun a b _ _ hab hba => ?_) h.ordered h'.ordered (h.perm.trans h'.perm.symm)
  exact absurd hba hab.asymm

theorem replay_perm {events events' : List WorkflowEvent} {s : WorkflowState} (h : WorkflowState.replay events = .ok s)
    (hp : events'.Perm events) : WorkflowState.replay events' = .ok s := by
  have hn := (replayed_of_replay h).nodup
  obtain ⟨s', hs'⟩ := replay_ok_iff.mpr ((hp.map WorkflowEvent.eventId).nodup_iff.mpr hn)
  have hc := collected_of_replay hs'
  rw [hs', Collected.unique ⟨hc.ordered, hc.perm.trans (hp.map _)⟩ (collected_of_replay h)]

/-! ## The first repeated event -/

theorem apply_error {s : WorkflowState} {e : WorkflowEvent} {x : ApplyError} (h : s.apply e = .error x) :
    x = .duplicateEvent e.eventId ∧ s.accepted e.eventId ≠ none := by
  obtain ⟨signal⟩ := e
  simp only [WorkflowState.apply] at h
  split at h
  · rename_i hsome
    cases h
    exact ⟨rfl, Option.isSome_iff_ne_none.mp hsome⟩
  · cases h

/-- The event at which replay stops: the first that repeats an id. -/
structure FirstRepeat (events : List WorkflowEvent) (before : List WorkflowEvent) (e : WorkflowEvent)
    (after : List WorkflowEvent) : Prop where
  split : events = before ++ e :: after
  distinct : (before.map WorkflowEvent.eventId).Nodup
  repeats : e.eventId ∈ before.map WorkflowEvent.eventId

theorem foldlM_error {s : WorkflowState} {before events : List WorkflowEvent} (h : Replayed s before) {x : ApplyError}
    (hf : events.foldlM WorkflowState.apply s = .error x) :
    ∃ b e a, FirstRepeat (before ++ events) b e a ∧ x = .duplicateEvent e.eventId := by
  induction events generalizing s before with
  | nil => cases hf
  | cons e events ih =>
    rw [List.foldlM_cons] at hf
    cases he : s.apply e with
    | ok s₁ =>
      rw [he] at hf
      obtain ⟨b, r, a, hr, hx⟩ := ih (h.apply he) hf
      rw [List.append_assoc] at hr
      exact ⟨b, r, a, hr, hx⟩
    | error y =>
      rw [he] at hf
      cases hf
      obtain ⟨hx, hsome⟩ := apply_error he
      refine ⟨before, e, events, ⟨rfl, h.nodup, ?_⟩, hx⟩
      by_contra hn
      exact hsome (h.accepted_none.mpr hn)

theorem replay_append (a b : List WorkflowEvent) :
    WorkflowState.replay (a ++ b) = WorkflowState.replay a >>= fun s => b.foldlM WorkflowState.apply s := by
  rw [WorkflowState.replay, List.foldlM_append]
  rfl

theorem replay_error_iff {events : List WorkflowEvent} {i : EventId} :
    WorkflowState.replay events = .error (.duplicateEvent i) ↔
      ∃ before e after, FirstRepeat events before e after ∧ e.eventId = i := by
  constructor
  · intro h
    obtain ⟨b, e, a, hr, hx⟩ := foldlM_error replayed_new h
    cases hx
    exact ⟨b, e, a, hr, rfl⟩
  · rintro ⟨b, e, a, ⟨rfl, hd, hr⟩, rfl⟩
    obtain ⟨s, hs⟩ := replay_ok_iff.mpr hd
    have hsome : s.accepted e.eventId ≠ none := fun hn => (replayed_of_replay hs).accepted_none.mp hn hr
    rw [replay_append, hs]
    change ((e :: a).foldlM WorkflowState.apply s) = _
    rw [List.foldlM_cons]
    cases he : s.apply e with
    | ok s₁ => exact absurd ((s.apply_ok_iff e).mp ⟨s₁, he⟩) hsome
    | error x =>
      rw [(apply_error he).1]
      rfl

theorem replay_setlike (events : List WorkflowEvent) :
    ((∃ s, WorkflowState.replay events = .ok s) ↔ (events.map WorkflowEvent.eventId).Nodup) ∧
    (∀ s, WorkflowState.replay events = .ok s →
      (∀ i signal, s.accepted i = some signal ↔ ∃ e ∈ events, e.eventId = i ∧ e.signal = signal) ∧
      s.len = events.length ∧
      ∀ events', events'.Perm events → WorkflowState.replay events' = .ok s) ∧
    (∀ x, WorkflowState.replay events = .error x →
      ∃ before e after, FirstRepeat events before e after ∧ x = .duplicateEvent e.eventId) ∧
    ∀ a b, events = a ++ b →
      WorkflowState.replay events = WorkflowState.replay a >>= fun s => b.foldlM WorkflowState.apply s := by
  refine ⟨replay_ok_iff, fun s hs => ⟨(replayed_of_replay hs).accepted, ?_, fun _ hp => replay_perm hs hp⟩, fun x hx => ?_, ?_⟩
  · have := (collected_of_replay hs).perm.length_eq
    rwa [List.length_map] at this
  · obtain ⟨i⟩ := x
    obtain ⟨b, e, a, hr, rfl⟩ := replay_error_iff.mp hx
    exact ⟨b, e, a, hr, rfl⟩
  · rintro a b rfl
    exact replay_append a b

end Aizign
