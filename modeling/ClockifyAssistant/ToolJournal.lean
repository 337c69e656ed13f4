import ClockifyAssistant.AssistantV2.RunController
import ClockifyAssistant.Lib.History

/-!
The tool calls in the log of a run. A model call and the end of the run bound a batch; within
its batch a requested call is closed exactly once, unless the run is suspended on the batch.
-/
namespace ClockifyAssistant

open Lib

namespace RunnerEvent

/-- The events that a batch of tool calls lies between. -/
def isBoundary : RunnerEvent → Bool
  | modelStarted _ _ _ _ | runCompleted _ | runFailed _ => true
  | _ => false

def suspends : RunnerEvent → Bool
  | runSuspended _ => true
  | _ => false

def closes (id : ToolCallId) : RunnerEvent → Bool
  | toolDenied toolCallId _ _ => toolCallId == id
  | toolCompleted toolCallId _ _ => toolCallId == id
  | _ => false

def requests (id : ToolCallId) : RunnerEvent → Bool
  | toolRequested toolCallId _ => toolCallId == id
  | _ => false

end RunnerEvent

namespace ToolJournal

/-- Each request since the last boundary is closed once, or the run was suspended after it. -/
def Settled (events : List RunnerEvent) : Prop :=
  ∀ before id request window, events = before ++ request :: window → request.requests id = true →
    (∀ event ∈ window, event.isBoundary = false) →
      (∃ event ∈ window, event.suspends = true) ∨ window.countP (RunnerEvent.closes id) = 1

/-- Whenever a model call starts or the run ends, the batch before it is settled. -/
def Closes (events : List RunnerEvent) : Prop :=
  Always (fun before event => event.isBoundary = true → Settled before) events

/-- Since the last boundary or suspension no call was requested. -/
def Quiet (events : List RunnerEvent) : Prop :=
  ∀ before id request window, events = before ++ request :: window → request.requests id = true →
    ∃ event ∈ window, event.isBoundary = true ∨ event.suspends = true

/-- The events of a part of a batch, with a closing for each of its own requests. -/
def Settles (events : List RunnerEvent) : Prop :=
  ∀ before id request window, events = before ++ request :: window → request.requests id = true →
    window.countP (RunnerEvent.closes id) = 1

def requestEvent (call : ToolCall) : RunnerEvent := .toolRequested call.id call.name

/-- The calls that the events request or close are among these. -/
def About (ids : List ToolCallId) (events : List RunnerEvent) : Prop :=
  ∀ event ∈ events, ∀ id, event.requests id = true ∨ event.closes id = true → id ∈ ids

section Lists

variable {events added earlier later : List RunnerEvent} {event : RunnerEvent}
  {ids ids' : List ToolCallId}

/-- An event of two lists is one of the first, with the second after it, or one of the
second. -/
theorem append_eq_split {before window : List RunnerEvent} {request : RunnerEvent}
    (h : earlier ++ later = before ++ request :: window) :
    (∃ rest, earlier = before ++ request :: rest ∧ window = rest ++ later) ∨
      ∃ rest, before = earlier ++ rest ∧ later = rest ++ request :: window := by
  rcases List.append_eq_append_iff.mp h with ⟨rest, hbefore, hlater⟩ | ⟨rest, hearlier, hwindow⟩
  · exact Or.inr ⟨rest, hbefore, hlater⟩
  · cases rest with
    | nil =>
      rw [List.append_nil] at hearlier
      exact Or.inr ⟨[], by rw [hearlier, List.append_nil], by simpa using hwindow.symm⟩
    | cons first rest =>
      obtain ⟨rfl, hrest⟩ := List.cons.inj hwindow
      exact Or.inl ⟨rest, hearlier, hrest⟩

theorem Quiet.nil : Quiet [] := by
  intro before id request window h
  simp at h

theorem Quiet.settled (h : Quiet events) : Settled events := by
  intro before id request window heq hrequest hwindow
  obtain ⟨event, hmem, hboundary | hsuspends⟩ := h before id request window heq hrequest
  · rw [hwindow event hmem] at hboundary
    cases hboundary
  · exact Or.inl ⟨event, hmem, hsuspends⟩

theorem Quiet.append (h : Quiet events)
    (hadded : ∀ event ∈ added, ∀ id, event.requests id = false) : Quiet (events ++ added) := by
  intro before id request window heq hrequest
  obtain ⟨rest, hevents, rfl⟩ | ⟨rest, rfl, hrest⟩ := append_eq_split heq
  · obtain ⟨event, hmem, hevent⟩ := h before id request rest hevents hrequest
    exact ⟨event, List.mem_append_left _ hmem, hevent⟩
  · have hmem : request ∈ added := hrest ▸ List.mem_append_right _ List.mem_cons_self
    rw [hadded request hmem id] at hrequest
    cases hrequest

theorem quiet_concat (events : List RunnerEvent)
    (hevent : event.isBoundary = true ∨ event.suspends = true) : Quiet (events ++ [event]) := by
  have hnone : ∀ id, event.requests id = false := by
    intro id
    cases event <;> simp_all [RunnerEvent.isBoundary, RunnerEvent.suspends, RunnerEvent.requests]
  intro before id request window heq hrequest
  obtain ⟨rest, -, rfl⟩ | ⟨rest, -, hrest⟩ := append_eq_split heq
  · exact ⟨event, List.mem_append_right _ List.mem_cons_self, hevent⟩
  · have hmem : request ∈ [event] := hrest ▸ List.mem_append_right _ List.mem_cons_self
    obtain rfl := List.mem_singleton.mp hmem
    rw [hnone id] at hrequest
    cases hrequest

theorem Quiet.settled_append (h : Quiet events) (hadded : Settles added) :
    Settled (events ++ added) := by
  intro before id request window heq hrequest hwindow
  obtain ⟨rest, hevents, rfl⟩ | ⟨rest, -, hrest⟩ := append_eq_split heq
  · obtain ⟨event, hmem, hboundary | hsuspends⟩ := h before id request rest hevents hrequest
    · rw [hwindow event (List.mem_append_left _ hmem)] at hboundary
      cases hboundary
    · exact Or.inl ⟨event, List.mem_append_left _ hmem, hsuspends⟩
  · exact Or.inr (hadded rest id request window hrest hrequest)

theorem Settles.nil : Settles [] := by
  intro before id request window h
  simp at h

theorem settles_of_noRequest (h : ∀ event ∈ added, ∀ id, event.requests id = false) :
    Settles added := by
  intro before id request window heq hrequest
  have hmem : request ∈ added := heq ▸ List.mem_append_right _ List.mem_cons_self
  rw [h request hmem id] at hrequest
  cases hrequest

theorem About.countP_closes (h : About ids events) {id : ToolCallId} (hid : id ∉ ids) :
    events.countP (RunnerEvent.closes id) = 0 := by
  rw [List.countP_eq_zero]
  intro event hmem hcloses
  exact hid (h event hmem id (Or.inr hcloses))

theorem Settles.append (h : Settles earlier) (h' : Settles later) (habout : About ids earlier)
    (habout' : About ids' later) (hdisjoint : List.Disjoint ids ids') :
    Settles (earlier ++ later) := by
  intro before id request window heq hrequest
  obtain ⟨rest, hevents, rfl⟩ | ⟨rest, -, hrest⟩ := append_eq_split heq
  · have hmem : request ∈ earlier := hevents ▸ List.mem_append_right _ List.mem_cons_self
    have hid : id ∈ ids := habout request hmem id (Or.inl hrequest)
    have hcount := h before id request rest hevents hrequest
    have hnone := habout'.countP_closes fun hid' => hdisjoint hid hid'
    rw [List.countP_append]
    omega
  · exact h' rest id request window hrest hrequest

theorem About.nil : About ids [] := fun _ hmem => nomatch hmem

theorem About.append (h : About ids earlier) (h' : About ids' later) :
    About (ids ++ ids') (earlier ++ later) := by
  intro event hmem id hid
  rcases List.mem_append.mp hmem with hmem | hmem
  · exact List.mem_append_left _ (h event hmem id hid)
  · exact List.mem_append_right _ (h' event hmem id hid)

theorem About.mono (h : About ids events) (hsub : ids ⊆ ids') : About ids' events :=
  fun event hmem id hid => hsub (h event hmem id hid)

theorem Closes.nil : Closes [] := Always.nil

theorem Closes.concat_inner (h : Closes events) (hevent : event.isBoundary = false) :
    Closes (events ++ [event]) := by
  refine Always.concat h fun hboundary => ?_
  rw [hevent] at hboundary
  cases hboundary

theorem Closes.append_inner (h : Closes events)
    (hadded : ∀ event ∈ added, event.isBoundary = false) : Closes (events ++ added) := by
  refine Always.append h fun done entry rest heq hboundary => ?_
  have hmem : entry ∈ added := heq ▸ List.mem_append_right _ List.mem_cons_self
  rw [hadded entry hmem] at hboundary
  cases hboundary

/-- An event that may bound the batch comes where the batch is settled. -/
theorem Closes.concat_settled (h : Closes events) (hsettled : Settled events) :
    Closes (events ++ [event]) :=
  Always.concat h fun _ => hsettled

theorem requests_requestEvent {call : ToolCall} {id : ToolCallId} :
    (requestEvent call).requests id = true ↔ call.id = id := by
  rw [requestEvent, RunnerEvent.requests, beq_iff_eq]

theorem about_requests (calls : List ToolCall) :
    About (calls.map ToolCall.id) (calls.map requestEvent) := by
  intro event hmem id hid
  obtain ⟨call, hcall, rfl⟩ := List.mem_map.mp hmem
  rcases hid with hrequests | hcloses
  · exact List.mem_map.mpr ⟨call, hcall, requests_requestEvent.mp hrequests⟩
  · cases hcloses

theorem countP_closes_requests (calls : List ToolCall) (id : ToolCallId) :
    (calls.map requestEvent).countP (RunnerEvent.closes id) = 0 := by
  rw [List.countP_eq_zero]
  intro event hmem hcloses
  obtain ⟨call, -, rfl⟩ := List.mem_map.mp hmem
  cases hcloses

/-- Calls that are requested one after the other and then closed, once each. -/
theorem settles_requests {calls : List ToolCall} {closings : List RunnerEvent}
    (hnone : ∀ event ∈ closings, ∀ id, event.requests id = false)
    (hclosed : ∀ call ∈ calls, closings.countP (RunnerEvent.closes call.id) = 1) :
    Settles (calls.map requestEvent ++ closings) := by
  intro before id request window heq hrequest
  obtain ⟨rest, hcalls, rfl⟩ | ⟨rest, -, hrest⟩ := append_eq_split heq
  · have hmem : request ∈ calls.map requestEvent :=
      hcalls ▸ List.mem_append_right _ List.mem_cons_self
    obtain ⟨call, hcall, rfl⟩ := List.mem_map.mp hmem
    obtain rfl := requests_requestEvent.mp hrequest
    have hwhole := countP_closes_requests calls call.id
    rw [hcalls, List.countP_append, List.countP_cons] at hwhole
    have hcount := hclosed call hcall
    rw [List.countP_append]
    omega
  · have hmem : request ∈ closings := hrest ▸ List.mem_append_right _ List.mem_cons_self
    rw [hnone request hmem id] at hrequest
    cases hrequest

end Lists

end ToolJournal

end ClockifyAssistant
