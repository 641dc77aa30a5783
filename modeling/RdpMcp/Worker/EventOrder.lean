import RdpMcp.Json.Text
import RdpMcp.Worker.Codec
import RdpMcp.Worker.Supervisor

/-!
# The order of a worker's events

Whatever the interleaving of the reader, the supervisor and the calls of `shutdown`, and whenever
the child exits, the handler hears the messages of the stream in their order, then possibly that the
stream is broken, then the terminal event, and nothing behind it (`worker_event_order`). The close
deadline never moves once it is set, and a call of `shutdown` that has returned has returned behind
all of this.

One invariant carries everything (`Orderly`). The order of the events rests on the supervisor's
join: it publishes only when the reader has nothing left to do. The shutdown calls rest on the lock:
who finds the handle gone has waited until its taker has joined the supervisor.
-/

open ByteReader

namespace RdpMcp

variable {toVec : JsonValue → List UInt8} {s t : WorkerState}

/-- The handler calls of a program of the reader. -/
def handlerCalls (program : List StreamEffect) : List SessionEvent :=
  program.filterMap fun
    | .handler kind partA partB => some (.output kind partA partB)
    | .control _ => none

theorem handlerCalls_append (xs ys : List StreamEffect) :
    handlerCalls (xs ++ ys) = handlerCalls xs ++ handlerCalls ys :=
  List.filterMap_append

/-! ### What a step can do -/

/-- The child has not been waited for yet. -/
def Supervision.early : Supervision → Bool
  | .polling | .checking | .receiving | .waiting _ => true
  | .joining _ | .publishing _ | .done => false

/-- The supervisor watches the child, or stops to, or has found the reader done, or publishes. -/
theorem supervise_cases {failure : Option String} (h : s.supervise toVec failure = some t) :
    (∃ supervision mailbox deadline, s.supervision.early = true ∧ supervision.early = true ∧
        (deadline = s.deadline ∨ s.deadline = none ∧ deadline = some (s.now + closeTimeout)) ∧
        t = { s with supervision, mailbox, deadline }) ∨
      (∃ status, s.supervision.early = true ∧
        t = { s with supervision := .joining status, waited := true }) ∨
      (∃ status, s.supervision = .joining status ∧ s.reader = [] ∧
        t = { s with supervision := .publishing status }) ∨
      ∃ status, s.supervision = .publishing status ∧
        t = { s with supervision := .done, calls := s.calls ++ [terminalCall toVec status] } := by
  unfold WorkerState.supervise at h
  split at h
  case h_1 hphase =>
    have hearly : s.supervision.early = true := by rw [hphase]; rfl
    split at h <;> cases h
    · exact .inl ⟨_, s.mailbox, s.deadline, hearly, rfl, .inl rfl, rfl⟩
    · exact .inr (.inl ⟨_, hearly, rfl⟩)
    · exact .inl ⟨_, s.mailbox, s.deadline, hearly, rfl, .inl rfl, rfl⟩
  case h_2 hphase =>
    have hearly : s.supervision.early = true := by rw [hphase]; rfl
    split at h <;> cases h
    · exact .inl ⟨_, s.mailbox, s.deadline, hearly, rfl, .inl rfl, rfl⟩
    · exact .inl ⟨_, s.mailbox, s.deadline, hearly, rfl, .inl rfl, rfl⟩
  case h_3 hphase =>
    have hearly : s.supervision.early = true := by rw [hphase]; rfl
    cases h
    rw [WorkerState.receive]
    split
    · refine .inl ⟨_, _, _, hearly, rfl, ?_, rfl⟩
      cases s.deadline with
      | none => exact .inr ⟨rfl, rfl⟩
      | some end' => exact .inl rfl
    · exact .inl ⟨_, _, s.deadline, hearly, rfl, .inl rfl, rfl⟩
    · split
      · exact .inl ⟨_, s.mailbox, s.deadline, hearly, rfl, .inl rfl, rfl⟩
      · exact .inl ⟨_, s.mailbox, s.deadline, hearly, rfl, .inl rfl, rfl⟩
  case h_4 hphase =>
    have hearly : s.supervision.early = true := by rw [hphase]; rfl
    split at h <;> cases h
    · exact .inr (.inl ⟨_, hearly, rfl⟩)
    · exact .inr (.inl ⟨_, hearly, rfl⟩)
  case h_5 status hphase =>
    split at h <;> cases h
    exact .inr (.inr (.inl ⟨status, hphase, ‹_›, rfl⟩))
  case h_6 status hphase =>
    cases h
    exact .inr (.inr (.inr ⟨status, hphase, rfl⟩))
  case h_7 => cases h

/-- What a step of the supervisor does with a request, and with a deadline that has passed. -/
structure Heeds (s t : WorkerState) : Prop where
  /-- The first request to close sets the deadline. -/
  close : ∀ mailbox, s.supervision = .receiving → s.mailbox = .close :: mailbox →
    t.deadline = some (s.deadline.getD (s.now + closeTimeout))
  /-- A request to stop has the child killed. -/
  stop : ∀ mailbox, s.supervision = .receiving → s.mailbox = .stop :: mailbox →
    t.supervision = .waiting none
  /-- So has a deadline that has passed. -/
  late : ∀ end' ≤ s.now, s.supervision = .checking → s.deadline = some end' →
    t.supervision = .waiting none

theorem heeds_supervise {failure : Option String} (h : s.supervise toVec failure = some t) :
    Heeds s t := by
  unfold WorkerState.supervise at h
  refine ⟨fun mailbox hphase hmailbox ↦ ?_, fun mailbox hphase hmailbox ↦ ?_,
    fun end' hend hphase hdeadline ↦ ?_⟩
  · rw [hphase] at h
    obtain rfl := Option.some.inj h
    rw [WorkerState.receive, hmailbox]
  · rw [hphase] at h
    obtain rfl := Option.some.inj h
    rw [WorkerState.receive, hmailbox]
  · rw [hphase, hdeadline] at h
    dsimp only at h
    rw [if_pos (by simpa using hend)] at h
    exact Option.some.inj h ▸ rfl

/-- A call of `shutdown` has asked for the end, or takes the lock, or gets past the join, or
returns. -/
theorem proceed_cases {i : ℕ} {call : ShutdownCall} (h : s.proceed i call = some t) :
    (∃ mailbox next, (next = .writing ∨ next = .locking) ∧ t = { s.move i next with mailbox }) ∨
      (call = .locking ∧ s.locked = false ∧
        t = { s.move i .joining with locked := true, handle := false }) ∨
      (call = .locking ∧ s.locked = false ∧ s.handle = false ∧
        t = { s.move i .taking with locked := true }) ∨
      (call = .joining ∧ s.supervision = .done ∧ t = s.move i .taking) ∨
      (call = .taking ∧ t = { s.move i .returned with locked := false }) := by
  cases call with
  | closing =>
    cases h
    exact .inl ⟨_, .writing, .inl rfl, rfl⟩
  | writing =>
    cases h
    exact .inl ⟨s.mailbox, .locking, .inr rfl, rfl⟩
  | locking =>
    rw [WorkerState.proceed] at h
    split at h
    · cases h
    case isFalse hfree =>
      rw [Bool.not_eq_true] at hfree
      split at h
      · cases h
        exact .inr (.inl ⟨rfl, hfree, rfl⟩)
      case isFalse hgone =>
        cases h
        exact .inr (.inr (.inl ⟨rfl, hfree, Bool.not_eq_true _ ▸ hgone, rfl⟩))
  | joining =>
    rw [WorkerState.proceed] at h
    split at h <;> cases h
    exact .inr (.inr (.inr (.inl ⟨rfl, ‹_›, rfl⟩)))
  | taking =>
    cases h
    exact .inr (.inr (.inr (.inr ⟨rfl, rfl⟩)))
  | returned => cases h

/-- The child exits, time passes or the owner is gone; or the reader, the supervisor or a call of
`shutdown` goes on; or another call begins. -/
theorem worker_step_cases {action : WorkerAction}
    (h : (workerSystem toVec).step s action = some t) :
    (∃ child now owned, t = { s with child, now, owned }) ∨ s.read = some t ∨
      (∃ failure, s.supervise toVec failure = some t) ∨
      t = { s with shutdowns := s.shutdowns ++ [.closing] } ∨
      ∃ i call, s.shutdowns[i]? = some call ∧ s.proceed i call = some t := by
  cases action with
  | exit status =>
    obtain ⟨-, hnext⟩ := Option.ite_none_right_eq_some.1 h
    exact .inl ⟨some status, s.now, s.owned, (Option.some.inj hnext).symm⟩
  | tick time => exact .inl ⟨s.child, s.now + time, s.owned, (Option.some.inj h).symm⟩
  | read => exact .inr (.inl h)
  | supervise failure => exact .inr (.inr (.inl ⟨failure, h⟩))
  | shutdown =>
    obtain ⟨-, hnext⟩ := Option.ite_none_right_eq_some.1 h
    exact .inr (.inr (.inr (.inl (Option.some.inj hnext).symm)))
  | proceed i =>
    obtain ⟨call, hcall, hnext⟩ := Option.bind_eq_some_iff.1 h
    exact .inr (.inr (.inr (.inr ⟨i, call, hcall, hnext⟩)))
  | drop =>
    obtain ⟨-, hnext⟩ := Option.ite_none_right_eq_some.1 h
    exact .inl ⟨s.child, s.now, false, (Option.some.inj hnext).symm⟩

/-! ### The invariant -/

/-- A call of `shutdown` that has the supervisor's end behind it. -/
def ShutdownCall.Joined (call : ShutdownCall) : Prop :=
  call = .taking ∨ call = .returned

/-- **The invariant of a worker's parent side**: all calls are the ones that are expected, the
terminal event is behind the reader's last one, and what waits for the supervisor has waited. -/
structure Orderly (toVec : JsonValue → List UInt8) (expected : List SessionEvent)
    (s : WorkerState) : Prop where
  pending : s.supervision ≠ .done → s.calls ++ handlerCalls s.reader = expected
  drained : (∃ status, s.supervision = .publishing status) ∨ s.supervision = .done → s.reader = []
  published : s.supervision = .done → ∃ status, s.calls = expected ++ [terminalCall toVec status]
  waited : s.supervision.early = false → s.waited = true
  taken : s.handle = false → s.locked = true ∨ s.supervision = .done
  joined : ∀ call ∈ s.shutdowns, call.Joined → s.supervision = .done

variable {expected : List SessionEvent}

theorem orderly_spawn {ε : Type*} (toVec : JsonValue → List UInt8)
    (display : StreamError ε → String) (events : List (ReadEvent UInt8 ε)) :
    Orderly toVec (handlerCalls (readerProgram toVec display events))
      (.spawn toVec display events) where
  pending _ := rfl
  drained h := by rcases h with ⟨_, h⟩ | h <;> cases h
  published := nofun
  waited := nofun
  taken := nofun
  joined := nofun

/-- The reader goes on. It has nothing to do once the supervisor has joined it. -/
theorem Orderly.read (h : Orderly toVec expected s) (hstep : s.read = some t) :
    Orderly toVec expected t := by
  rw [WorkerState.read] at hstep
  split at hstep
  · cases hstep
  case h_2 kind partA partB reader hreader =>
    have hbusy : ¬((∃ status, s.supervision = .publishing status) ∨ s.supervision = .done) :=
      fun hlate ↦ by cases hreader.symm.trans (h.drained hlate)
    cases hstep
    refine { h with
      pending := fun hne ↦ ?_
      drained := fun hlate ↦ absurd hlate hbusy
      published := fun hdone ↦ absurd (.inr hdone) hbusy }
    rw [← h.pending hne, hreader, List.append_assoc]
    rfl
  case h_3 signal reader hreader =>
    have hbusy : ¬((∃ status, s.supervision = .publishing status) ∨ s.supervision = .done) :=
      fun hlate ↦ by cases hreader.symm.trans (h.drained hlate)
    cases hstep
    refine { h with
      pending := fun hne ↦ ?_
      drained := fun hlate ↦ absurd hlate hbusy
      published := fun hdone ↦ absurd (.inr hdone) hbusy }
    rw [← h.pending hne, hreader]
    rfl

theorem Supervision.ne_done_of_early {supervision : Supervision} (h : supervision.early = true) :
    supervision ≠ .done := by
  rintro rfl
  cases h

/-- The supervisor goes on. -/
theorem Orderly.supervise (h : Orderly toVec expected s) {failure : Option String}
    (hstep : s.supervise toVec failure = some t) : Orderly toVec expected t := by
  rcases supervise_cases hstep with ⟨supervision, mailbox, deadline, hs, hnext, -, rfl⟩ |
    ⟨status, hs, rfl⟩ | ⟨status, hs, hreader, rfl⟩ | ⟨status, hs, rfl⟩
  · have hne := Supervision.ne_done_of_early hs
    have hne' := Supervision.ne_done_of_early hnext
    exact {
      pending := fun _ ↦ h.pending hne
      drained := fun hlate ↦ by
        rcases hlate with ⟨status, rfl⟩ | hdone
        · cases hnext
        · exact absurd hdone hne'
      published := fun hdone ↦ absurd hdone hne'
      waited := fun hlate ↦ by cases hnext.symm.trans hlate
      taken := fun hgone ↦ .inl ((h.taken hgone).resolve_right hne)
      joined := fun call hmem hcall ↦ absurd (h.joined call hmem hcall) hne }
  · have hne := Supervision.ne_done_of_early hs
    exact {
      pending := fun _ ↦ h.pending hne
      drained := fun hlate ↦ by rcases hlate with ⟨_, hlate⟩ | hlate <;> cases hlate
      published := nofun
      waited := fun _ ↦ rfl
      taken := fun hgone ↦ .inl ((h.taken hgone).resolve_right hne)
      joined := fun call hmem hcall ↦ absurd (h.joined call hmem hcall) hne }
  · have hne : s.supervision ≠ .done := by rw [hs]; exact nofun
    exact {
      pending := fun _ ↦ h.pending hne
      drained := fun _ ↦ hreader
      published := nofun
      waited := fun _ ↦ h.waited (by rw [hs]; rfl)
      taken := fun hgone ↦ .inl ((h.taken hgone).resolve_right hne)
      joined := fun call hmem hcall ↦ absurd (h.joined call hmem hcall) hne }
  · -- the reader has been joined, so everything expected has been called
    have hne : s.supervision ≠ .done := by rw [hs]; exact nofun
    have hreader := h.drained (.inl ⟨status, hs⟩)
    have hcalls := h.pending hne
    rw [hreader, show handlerCalls [] = [] from rfl, List.append_nil] at hcalls
    exact {
      pending := fun hdone ↦ absurd rfl hdone
      drained := fun _ ↦ hreader
      published := fun _ ↦ ⟨status, by rw [hcalls]⟩
      waited := fun _ ↦ h.waited (by rw [hs]; rfl)
      taken := fun _ ↦ .inr rfl
      joined := fun _ _ _ ↦ rfl }

/-- A call that moves on keeps the promise of all calls if its own step does. -/
theorem Orderly.joined_set (h : Orderly toVec expected s) {i : ℕ} {next : ShutdownCall}
    (hnext : next.Joined → s.supervision = .done) :
    ∀ call ∈ s.shutdowns.set i next, call.Joined → s.supervision = .done := by
  intro call hmem hcall
  rcases List.mem_or_eq_of_mem_set hmem with hmem | rfl
  · exact h.joined call hmem hcall
  · exact hnext hcall

/-- A call of `shutdown` goes on. -/
theorem Orderly.proceed (h : Orderly toVec expected s) {i : ℕ} {call : ShutdownCall}
    (hcall : s.shutdowns[i]? = some call) (hstep : s.proceed i call = some t) :
    Orderly toVec expected t := by
  rcases proceed_cases hstep with ⟨mailbox, next, hnext, rfl⟩ | ⟨-, hfree, rfl⟩ |
    ⟨-, hfree, hgone, rfl⟩ | ⟨-, hdone, rfl⟩ | ⟨rfl, rfl⟩
  · refine { h with joined := h.joined_set fun hjoined ↦ ?_ }
    rcases hnext with rfl | rfl <;> rcases hjoined with hjoined | hjoined <;> cases hjoined
  · refine { h with
      taken := fun _ ↦ .inl rfl
      joined := h.joined_set fun hjoined ↦ ?_ }
    rcases hjoined with hjoined | hjoined <;> cases hjoined
  · -- the handle is gone and the lock is free, so its taker has come back from the join
    have hdone := (h.taken hgone).resolve_left (by rw [hfree]; exact Bool.false_ne_true)
    exact { h with
      taken := fun _ ↦ .inl rfl
      joined := h.joined_set fun _ ↦ hdone }
  · exact { h with joined := h.joined_set fun _ ↦ hdone }
  · have hdone := h.joined .taking (List.mem_of_getElem? hcall) (.inl rfl)
    exact { h with
      taken := fun _ ↦ .inr hdone
      joined := h.joined_set fun _ ↦ hdone }

/-- **Every step keeps the order.** -/
theorem Orderly.step {action : WorkerAction} (h : Orderly toVec expected s)
    (hstep : (workerSystem toVec).step s action = some t) : Orderly toVec expected t := by
  rcases worker_step_cases hstep with ⟨child, now, owned, rfl⟩ | hread | ⟨failure, hsupervise⟩ |
    rfl | ⟨i, call, hcall, hproceed⟩
  · exact { h with }
  · exact h.read hread
  · exact h.supervise hsupervise
  · refine { h with joined := fun call hmem hcall ↦ ?_ }
    rcases List.mem_append.1 hmem with hmem | hmem
    · exact h.joined call hmem hcall
    · rcases hcall with rfl | rfl <;> cases List.mem_singleton.1 hmem
  · exact h.proceed hcall hproceed

/-! ### What never changes -/

/-- What a later state keeps: the deadline, and the calls once the terminal event is among them. -/
def Keeps (s t : WorkerState) : Prop :=
  (∀ end', s.deadline = some end' → t.deadline = some end') ∧
    (s.supervision = .done → t.supervision = .done ∧ t.calls = s.calls)

theorem Keeps.refl (s : WorkerState) : Keeps s s :=
  ⟨fun _ ↦ id, fun h ↦ ⟨h, rfl⟩⟩

theorem Keeps.trans {u : WorkerState} (hst : Keeps s t) (htu : Keeps t u) : Keeps s u := by
  refine ⟨fun end' h ↦ htu.1 end' (hst.1 end' h), fun h ↦ ?_⟩
  obtain ⟨hdone, hcalls⟩ := hst.2 h
  exact ⟨(htu.2 hdone).1, (htu.2 hdone).2.trans hcalls⟩

/-- **No step moves the deadline, and no step calls the handler behind the terminal event.** -/
theorem Orderly.keeps {action : WorkerAction} (h : Orderly toVec expected s)
    (hstep : (workerSystem toVec).step s action = some t) : Keeps s t := by
  rcases worker_step_cases hstep with ⟨child, now, owned, rfl⟩ | hread | ⟨failure, hsupervise⟩ |
    rfl | ⟨i, call, -, hproceed⟩
  · exact Keeps.refl s
  · rw [WorkerState.read] at hread
    split at hread
    · cases hread
    case h_2 kind partA partB reader hreader =>
      -- the reader still has something to do, so the supervisor has not joined it
      cases hread
      exact ⟨fun _ ↦ id, fun hdone ↦ by cases hreader.symm.trans (h.drained (.inr hdone))⟩
    · cases hread
      exact Keeps.refl s
  · rcases supervise_cases hsupervise with ⟨_, _, _, hs, -, hdeadline, rfl⟩ | ⟨_, hs, rfl⟩ |
      ⟨_, hs, -, rfl⟩ | ⟨_, hs, rfl⟩
    · refine ⟨fun end' hend ↦ ?_, fun hdone ↦ absurd hdone (Supervision.ne_done_of_early hs)⟩
      exact (hdeadline.resolve_right fun hset ↦ by cases hset.1.symm.trans hend).trans hend
    · exact ⟨fun _ ↦ id, fun hdone ↦ absurd hdone (Supervision.ne_done_of_early hs)⟩
    · exact ⟨fun _ ↦ id, fun hdone ↦ by cases hs.symm.trans hdone⟩
    · exact ⟨fun _ ↦ id, fun hdone ↦ by cases hs.symm.trans hdone⟩
  · exact Keeps.refl s
  · rcases proceed_cases hproceed with ⟨_, _, -, rfl⟩ | ⟨-, -, rfl⟩ | ⟨-, -, -, rfl⟩ | ⟨-, -, rfl⟩ |
      ⟨-, rfl⟩ <;> exact Keeps.refl s

/-- Nothing else sets a deadline, and nothing moves one. -/
theorem deadline_step {action : WorkerAction}
    (hstep : (workerSystem toVec).step s action = some t) :
    t.deadline = s.deadline ∨ s.deadline = none ∧ t.deadline = some (s.now + closeTimeout) := by
  rcases worker_step_cases hstep with ⟨child, now, owned, rfl⟩ | hread | ⟨failure, hsupervise⟩ |
    rfl | ⟨i, call, -, hproceed⟩
  · exact .inl rfl
  · rw [WorkerState.read] at hread
    split at hread <;> cases hread <;> exact .inl rfl
  · rcases supervise_cases hsupervise with ⟨_, _, _, -, -, hdeadline, rfl⟩ | ⟨_, -, rfl⟩ |
      ⟨_, -, -, rfl⟩ | ⟨_, -, rfl⟩
    · exact hdeadline
    · exact .inl rfl
    · exact .inl rfl
    · exact .inl rfl
  · exact .inl rfl
  · rcases proceed_cases hproceed with ⟨_, _, -, rfl⟩ | ⟨-, -, rfl⟩ | ⟨-, -, -, rfl⟩ | ⟨-, -, rfl⟩ |
      ⟨-, rfl⟩ <;> exact .inl rfl

/-! ### The end can always be reached -/

variable (toVec) in
/-- Some continuation leads to the end of the supervisor. -/
def Finishes (s : WorkerState) : Prop :=
  ∃ later t, (workerSystem toVec).run s later = some t ∧ t.supervision = .done

theorem Finishes.cons {action : WorkerAction} (h : Finishes toVec t)
    (hstep : (workerSystem toVec).step s action = some t) : Finishes toVec s := by
  obtain ⟨later, u, hrun, hdone⟩ := h
  exact ⟨action :: later, u, StepSystem.run_cons_eq_some_iff _ |>.2 ⟨t, hstep, hrun⟩, hdone⟩

/-- The supervisor gets to its end when the reader is done and the child has exited: wherever it is,
it is on its way to the join. -/
theorem finishes_of_idle (hreader : s.reader = []) {status : ExitStatus}
    (hchild : s.child = some status) : Finishes toVec s := by
  have hnext {u v : WorkerState} (hstep : u.supervise toVec none = some v)
      (h : Finishes toVec v) : Finishes toVec u :=
    h.cons (show (workerSystem toVec).step u (.supervise none) = some v from hstep)
  have hpublishing {u : WorkerState} {result : Except String ExitStatus}
      (h : u.supervision = .publishing result) : Finishes toVec u :=
    hnext (by unfold WorkerState.supervise; rw [h]) ⟨[], _, rfl, rfl⟩
  have hjoining {u : WorkerState} {result : Except String ExitStatus} (hu : u.reader = [])
      (h : u.supervision = .joining result) : Finishes toVec u :=
    hnext (by unfold WorkerState.supervise; rw [h]; exact if_pos hu) (hpublishing rfl)
  have hwaiting {u : WorkerState} {cause : Option String} (hu : u.reader = [])
      (hexit : u.child = some status) (h : u.supervision = .waiting cause) : Finishes toVec u := by
    have hstep : u.supervise toVec none = some { u with
        supervision := .joining (cause.elim (.ok status) .error)
        waited := true } := by
      unfold WorkerState.supervise
      rw [h, hexit]
    exact hnext hstep (hjoining hu rfl)
  have hpolling {u : WorkerState} (hu : u.reader = []) (hexit : u.child = some status)
      (h : u.supervision = .polling) : Finishes toVec u := by
    have hstep : u.supervise toVec none = some { u with
        supervision := .joining (.ok status)
        waited := true } := by
      unfold WorkerState.supervise
      rw [h, hexit]
    exact hnext hstep (hjoining hu rfl)
  have hreceiving {u : WorkerState} (hu : u.reader = []) (hexit : u.child = some status)
      (h : u.supervision = .receiving) : Finishes toVec u := by
    refine hnext (by unfold WorkerState.supervise; rw [h]) ?_
    rw [WorkerState.receive]
    split
    · exact hpolling hu hexit rfl
    · exact hwaiting hu hexit rfl
    · split
      · exact hwaiting hu hexit rfl
      · exact hpolling hu hexit rfl
  cases h : s.supervision with
  | polling => exact hpolling hreader hchild h
  | checking =>
    by_cases hend : s.deadline.any (· ≤ s.now) = true
    · have hstep : s.supervise toVec none = some { s with supervision := .waiting none } := by
        unfold WorkerState.supervise
        rw [h]
        exact if_pos hend
      exact hnext hstep (hwaiting hreader hchild rfl)
    · have hstep : s.supervise toVec none = some { s with supervision := .receiving } := by
        unfold WorkerState.supervise
        rw [h]
        exact if_neg hend
      exact hnext hstep (hreceiving hreader hchild rfl)
  | receiving => exact hreceiving hreader hchild h
  | waiting cause => exact hwaiting hreader hchild h
  | joining result => exact hjoining hreader h
  | publishing result => exact hpublishing h
  | done => exact ⟨[], s, rfl, h⟩

/-- **Nobody waits for ever**: the reader can read to its end, the child can exit, and then the
supervisor finishes. -/
theorem finishes (toVec : JsonValue → List UInt8) (s : WorkerState) : Finishes toVec s := by
  generalize hreader : s.reader = reader
  induction reader generalizing s with
  | nil =>
    cases hchild : s.child with
    | some status => exact finishes_of_idle hreader hchild
    | none =>
      have hdone : Finishes toVec { s with child := some ⟨true, ""⟩ } :=
        finishes_of_idle hreader rfl
      exact hdone.cons (show (workerSystem toVec).step s (.exit ⟨true, ""⟩) = _ from if_pos hchild)
  | cons effect reader ih =>
    cases effect with
    | handler kind partA partB =>
      refine (ih { s with reader, calls := s.calls ++ [.output kind partA partB] } rfl).cons
        (show (workerSystem toVec).step s .read = _ from ?_)
      show s.read = _
      rw [WorkerState.read, hreader]
    | control signal =>
      refine (ih { s with reader, mailbox := s.mailbox ++ [signal] } rfl).cons
        (show (workerSystem toVec).step s .read = _ from ?_)
      show s.read = _
      rw [WorkerState.read, hreader]

/-! ### The order -/

section Order

variable {ε : Type} (display : StreamError ε → String) (events : List (ReadEvent UInt8 ε))

/-- What the handler hears of a stream. -/
theorem handlerCalls_readerProgram (toVec : JsonValue → List UInt8) :
    handlerCalls (readerProgram toVec display events) = handlerCalls (readEvents events).1 ++
      handlerCalls (streamErrorCall toVec display (readEvents events).2) := by
  rw [readerProgram, handlerCalls_append, handlerCalls_append]
  exact List.append_nil _

/-- **The order of a worker's events.** In every state that can be reached, the handler has been
called for messages of the stream in their order, then at most once for a broken stream, and once
the supervisor is done, for all of them and then for the terminal event, which ends every session
that hears these calls. Nothing is called behind it. The deadline is set by the first request to
close and does not move; when it has passed, or on a request to stop, the child is killed. A call of
`shutdown` that has returned has waited for all this and for the child, and the end can be reached
from everywhere. -/
theorem worker_event_order (toVec : JsonValue → List UInt8)
    (fromSlice : List UInt8 → Option JsonValue) {actions : List WorkerAction} {s : WorkerState}
    (hrun : (workerSystem toVec).run (.spawn toVec display events) actions = some s) :
    let decoded := handlerCalls (readEvents events).1
    let broken := handlerCalls (streamErrorCall toVec display (readEvents events).2)
    broken.length ≤ 1 ∧
      (s.supervision ≠ .done → s.calls <+: decoded ++ broken) ∧
      (s.supervision = .done → s.waited = true ∧
        (∃ status, s.calls = decoded ++ broken ++ [terminalCall toVec status]) ∧
        ∀ history, List.Sublist s.calls history →
          ∃ session, (sessionSystem 64 fromSlice).run {} history = some session ∧
            session.disconnected = true) ∧
      (.returned ∈ s.shutdowns → s.supervision = .done) ∧
      (∀ later t, (workerSystem toVec).run s later = some t → Keeps s t) ∧
      (∀ action t, (workerSystem toVec).step s action = some t → t.deadline = s.deadline ∨
        s.deadline = none ∧ t.deadline = some (s.now + closeTimeout)) ∧
      (∀ failure t, (workerSystem toVec).step s (.supervise failure) = some t → Heeds s t) ∧
      ∃ later t, (workerSystem toVec).run s later = some t ∧ t.supervision = .done := by
  intro decoded broken
  have hinv : Orderly toVec (decoded ++ broken) s :=
    StepSystem.run_invariant (fun _ _ _ h hstep ↦ h.step hstep)
      (handlerCalls_readerProgram display events toVec ▸ orderly_spawn toVec display events) hrun
  refine ⟨?_, fun hne ↦ ⟨_, hinv.pending hne⟩, fun hdone ↦ ?_,
    fun hmem ↦ hinv.joined .returned hmem (.inr rfl), fun later t hlater ↦ ?_,
    fun _ _ hstep ↦ deadline_step hstep, fun _ _ hstep ↦ heeds_supervise hstep, finishes toVec s⟩
  · show (handlerCalls (streamErrorCall toVec display (readEvents events).2)).length ≤ 1
    cases (readEvents events).2 with
    | ok => exact Nat.zero_le 1
    | error error => exact Nat.le_refl 1
  · obtain ⟨status, hcalls⟩ := hinv.published hdone
    refine ⟨hinv.waited (by rw [hdone]; rfl), ⟨status, hcalls⟩, fun history hsub ↦ ?_⟩
    obtain ⟨session, hsession, -⟩ :=
      exists_run_valid fromSlice SessionState.valid_default history
    refine ⟨session, hsession, run_disconnected_of_stops SessionState.valid_default hsession
      (.inr ⟨terminalCall toVec status, hsub.subset ?_, rfl⟩)⟩
    rw [hcalls]
    exact List.mem_append_right _ List.mem_cons_self
  · exact StepSystem.run_relates Keeps.refl (fun _ _ _ ↦ Keeps.trans)
      (fun _ _ _ h hstep ↦ Orderly.step h hstep) (fun _ _ _ h hstep ↦ Orderly.keeps h hstep)
      hinv hlater

end Order

section Fragments

/-- A shutdown call begins, the child exits between two messages, and the supervisor notices before
the reader is done. -/
def closing : List WorkerAction :=
  [.read, .shutdown, .proceed 0, .exit ⟨true, "exit status: 0"⟩, .supervise none, .proceed 0,
    .proceed 0, .read, .read, .supervise none, .supervise none, .proceed 0, .proceed 0]

theorem readerProgram_pieces :
    readerProgram compact (fun _ ↦ "") pieces =
      [.handler msgBitmapUpdate [0, 0, 0, 0, 1, 0, 1, 0] [10, 20, 30, 255],
        .handler msgReady [] [], .control .stop] := by
  have hrel : Reliable pieces := fun error h ↦ by simp [pieces] at h
  rw [readerProgram, readEvents_wires hrel (show ∀ m ∈ pixelThenReady, m.Sendable by decide) rfl]
  rfl

theorem worker_event_order_closing :
    ∃ s, (workerSystem compact).run (.spawn compact (fun _ ↦ "") pieces) closing = some s ∧
      s.shutdowns = [.returned] ∧ s.waited = true ∧ s.calls.length = 3 := by
  have hrun : ∃ s,
      (workerSystem compact).run (.spawn compact (fun _ ↦ "") pieces) closing = some s ∧
        s.shutdowns = [.returned] ∧ s.calls.length = 3 := by
    rw [WorkerState.spawn, readerProgram_pieces]
    exact ⟨_, rfl, rfl, rfl⟩
  obtain ⟨s, hrun, hshutdowns, hcalls⟩ := hrun
  have horder := worker_event_order (fun _ ↦ "") pieces compact (fun _ ↦ none) hrun
  have hdone := horder.2.2.2.1 (by rw [hshutdowns]; exact List.mem_cons_self)
  exact ⟨s, hrun, hshutdowns, (horder.2.2.1 hdone).1, hcalls⟩

end Fragments

end RdpMcp
