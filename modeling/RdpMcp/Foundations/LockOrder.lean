import Mathlib.Data.List.Nodup
import Mathlib.Logic.Relation
import Mathlib.Order.WellFounded
import RdpMcp.Foundations.StepSystem

/-!
# Locks taken in order

Threads that take locks, start threads and wait for their end. Of a program only this is left
(`Code`): what it takes and gives back, and where it branches; **which branch is taken is anyone's
choice**. A thread that waits can go on when the lock is free, or the other thread has ended.

The discipline is the usual one: a thread waits only for what ranks above itself and above all that
it holds. `check` computes it from the code, together with the locks that are held afterwards.

* Checked code stays checked as it is run (`Orderly.step`): what remains of it is in order with
  respect to the locks that the thread holds by then.
* Whatever a thread waits for is in the hands of a thread that has not ended, and that waits, if it
  does, for something of a higher rank (`Orderly.exists_waitsFor`).

So **every thread that has not ended waits for one that can go on**, possibly through others
(`exists_canStep`). That is more than the absence of a deadlock of all threads: no part of them is
stuck either, while others are busy.
-/

namespace LockOrder

variable {L T ρ : Type*}

/-! ### Code and its meaning -/

/-- What a program does about locks and threads. -/
inductive Code (L T : Type*) where
  | skip
  | acquire (lock : L)
  | release (lock : L)
  /-- Take the lock if it is free. -/
  | attempt (lock : L) (taken busy : Code L T)
  | start (thread : T)
  /-- Wait for the end of a thread, if it has been started. -/
  | join (thread : T)
  | seq (first next : Code L T)
  | either (one other : Code L T)
  /-- The body, any number of times. -/
  | loop (body : Code L T)

namespace Code

/-- One code after another. -/
def all (codes : List (Code L T)) : Code L T :=
  codes.foldr seq skip

/-- One of several codes, or none. -/
def oneOf (codes : List (Code L T)) : Code L T :=
  codes.foldr either skip

/-- Code that may be left out. -/
def maybe (code : Code L T) : Code L T :=
  either code skip

/-- Code under a lock. -/
def under (lock : L) (code : Code L T) : Code L T :=
  seq (acquire lock) (seq code (release lock))

/-- Code that is run with a lock given back. -/
def outside (lock : L) (code : Code L T) : Code L T :=
  seq (release lock) (seq code (acquire lock))

end Code

/-- What the threads have still to do, and who holds the locks. -/
structure State (L T : Type*) where
  todo : T → List (Code L T)
  started : T → Bool
  holder : L → Option T

variable [DecidableEq L] [DecidableEq T]

namespace State

/-- A thread goes on with other code. -/
def goOn (s : State L T) (t : T) (todo : List (Code L T)) : State L T :=
  { s with todo := Function.update s.todo t todo }

/-- A lock changes hands. -/
def hand (s : State L T) (lock : L) (holder : Option T) : State L T :=
  { s with holder := Function.update s.holder lock holder }

/-- A thread is started. -/
def start (s : State L T) (t : T) : State L T :=
  { s with started := Function.update s.started t true }

omit [DecidableEq L] in
@[simp]
theorem goOn_todo (s : State L T) (t : T) (todo : List (Code L T)) (u : T) :
    (s.goOn t todo).todo u = if u = t then todo else s.todo u :=
  Function.update_apply s.todo t todo u

omit [DecidableEq L] in
@[simp]
theorem goOn_holder (s : State L T) (t : T) (todo : List (Code L T)) :
    (s.goOn t todo).holder = s.holder :=
  rfl

omit [DecidableEq T] in
@[simp]
theorem hand_todo (s : State L T) (lock : L) (holder : Option T) :
    (s.hand lock holder).todo = s.todo :=
  rfl

omit [DecidableEq T] in
@[simp]
theorem hand_holder (s : State L T) (lock : L) (holder : Option T) (l : L) :
    (s.hand lock holder).holder l = if l = lock then holder else s.holder l :=
  Function.update_apply s.holder lock holder l

omit [DecidableEq L] in
@[simp]
theorem start_started (s : State L T) (t u : T) :
    (s.start t).started u = if u = t then true else s.started u :=
  Function.update_apply s.started t true u

/-- A thread has been started and has not ended. -/
def running (s : State L T) (t : T) : Bool :=
  s.started t && !(s.todo t).isEmpty

/-- The next step of a thread; the bit is its choice. -/
def next (s : State L T) (t : T) (bit : Bool) : List (Code L T) → Option (State L T)
  | [] => none
  | .skip :: rest => some (s.goOn t rest)
  | .acquire lock :: rest =>
    if s.holder lock = none then some ((s.goOn t rest).hand lock (some t)) else none
  | .release lock :: rest =>
    if s.holder lock = some t then some ((s.goOn t rest).hand lock none) else none
  | .attempt lock taken busy :: rest =>
    if s.holder lock = none then some ((s.goOn t (taken :: rest)).hand lock (some t))
    else some (s.goOn t (busy :: rest))
  | .start u :: rest => some ((s.goOn t rest).start u)
  | .join u :: rest => if s.running u then none else some (s.goOn t rest)
  | .seq first next :: rest => some (s.goOn t (first :: next :: rest))
  | .either one other :: rest => some (s.goOn t ((if bit then one else other) :: rest))
  | .loop body :: rest => some (s.goOn t (if bit then body :: .loop body :: rest else rest))

end State

/-- Any thread that has been started may take the next step. -/
def system : StepSystem (State L T) (T × Bool) where
  step s action :=
    if s.started action.1 then s.next action.1 action.2 (s.todo action.1) else none

/-- Nothing has been done. -/
def init (code : T → Code L T) (started : T → Bool) : State L T where
  todo t := [code t]
  started
  holder _ := none

namespace State

/-- A thread can take a step. -/
def CanStep (s : State L T) (t : T) : Prop :=
  ∃ bit s', system.step s (t, bit) = some s'

/-- A thread waits for another. -/
def WaitsFor (s : State L T) (t u : T) : Prop :=
  s.running t = true ∧ ((∃ lock rest, s.todo t = .acquire lock :: rest ∧ s.holder lock = some u) ∨
    ∃ rest, s.todo t = .join u :: rest ∧ s.running u = true)

end State

/-! ### The discipline -/

/-- The ranks of locks and threads. -/
structure Ranking (L T ρ : Type*) where
  lock : L → ρ
  thread : T → ρ

variable [Preorder ρ] [DecidableLT ρ]

/-- What ranks above a thread and all that it holds. -/
def Ranking.Above (R : Ranking L T ρ) (base : ρ) (held : List L) (r : ρ) : Prop :=
  base < r ∧ ∀ lock ∈ held, R.lock lock < r

instance (R : Ranking L T ρ) (base : ρ) (held : List L) (r : ρ) :
    Decidable (R.Above base held r) :=
  inferInstanceAs (Decidable (_ ∧ _))

omit [DecidableEq L] [DecidableEq T] [DecidableLT ρ] in
theorem Ranking.above_nil {R : Ranking L T ρ} {base r : ρ} (h : base < r) : R.Above base [] r :=
  ⟨h, fun _ hlock ↦ absurd hlock List.not_mem_nil⟩

omit [DecidableEq L] [DecidableEq T] [DecidableLT ρ] in
theorem Ranking.Above.cons {R : Ranking L T ρ} {base r : ρ} {held : List L}
    (h : R.Above base held r) {lock : L} (hlock : R.lock lock < r) :
    R.Above base (lock :: held) r :=
  ⟨h.1, List.forall_mem_cons.2 ⟨hlock, h.2⟩⟩

omit [DecidableEq L] [DecidableEq T] [DecidableLT ρ] in
theorem Ranking.Above.mono {R : Ranking L T ρ} {base r r' : ρ} {held : List L}
    (h : R.Above base held r) (hle : r ≤ r') : R.Above base held r' :=
  ⟨h.1.trans_le hle, fun lock hlock ↦ (h.2 lock hlock).trans_le hle⟩

/-- **The check**: the locks that are held after the code, if it keeps to the order. -/
def check (R : Ranking L T ρ) (base : ρ) : Code L T → List L → Option (List L)
  | .skip, held => some held
  | .acquire lock, held => if R.Above base held (R.lock lock) then some (lock :: held) else none
  | .release lock, held => if lock ∈ held then some (held.erase lock) else none
  | .attempt lock taken busy, held =>
    (check R base taken (lock :: held)).bind fun after ↦
      if check R base busy held = some after then some after else none
  | .start _, held => some held
  | .join u, held => if R.Above base held (R.thread u) then some held else none
  | .seq first next, held => (check R base first held).bind (check R base next)
  | .either one other, held =>
    (check R base one held).bind fun after ↦
      if check R base other held = some after then some after else none
  | .loop body, held => if check R base body held = some held then some held else none

/-! Code that gives back what it takes. -/

section Keeps

variable {R : Ranking L T ρ} {base : ρ} {held : List L}

omit [DecidableEq T]

theorem check_seq {first next : Code L T} (hfirst : check R base first held = some held) :
    check R base (.seq first next) held = check R base next held := by
  rw [check, hfirst, Option.bind_some]

theorem check_either {one other : Code L T} (hone : check R base one held = some held)
    (hother : check R base other held = some held) :
    check R base (.either one other) held = some held := by
  rw [check, hone, Option.bind_some, if_pos hother]

theorem check_loop {body : Code L T} (hbody : check R base body held = some held) :
    check R base (.loop body) held = some held := by
  rw [check, if_pos hbody]

theorem check_maybe {code : Code L T} (hcode : check R base code held = some held) :
    check R base (.maybe code) held = some held :=
  check_either hcode rfl

theorem check_join {thread : T} (habove : R.Above base held (R.thread thread)) :
    check R base (.join thread) held = some held :=
  if_pos habove

theorem check_all {codes : List (Code L T)}
    (h : ∀ code ∈ codes, check R base code held = some held) :
    check R base (.all codes) held = some held := by
  induction codes with
  | nil => rfl
  | cons code codes ih =>
    obtain ⟨hcode, hcodes⟩ := List.forall_mem_cons.1 h
    exact (check_seq hcode).trans (ih hcodes)

theorem check_oneOf {codes : List (Code L T)}
    (h : ∀ code ∈ codes, check R base code held = some held) :
    check R base (.oneOf codes) held = some held := by
  induction codes with
  | nil => rfl
  | cons code codes ih =>
    obtain ⟨hcode, hcodes⟩ := List.forall_mem_cons.1 h
    exact check_either hcode (ih hcodes)

theorem check_under {lock : L} {code : Code L T} (habove : R.Above base held (R.lock lock))
    (hcode : check R base code (lock :: held) = some (lock :: held)) :
    check R base (.under lock code) held = some held := by
  rw [Code.under, check, check, if_pos habove, Option.bind_some, check_seq hcode, check,
    if_pos List.mem_cons_self, List.erase_cons_head]

theorem check_outside {lock : L} {code : Code L T} (habove : R.Above base held (R.lock lock))
    (hcode : check R base code held = some held) :
    check R base (.outside lock code) (lock :: held) = some (lock :: held) := by
  rw [Code.outside, check, check, if_pos List.mem_cons_self, List.erase_cons_head,
    Option.bind_some, check_seq hcode, check, if_pos habove]

theorem check_attempt {lock : L} {taken busy : Code L T}
    (htaken : check R base taken (lock :: held) = some held)
    (hbusy : check R base busy held = some held) :
    check R base (.attempt lock taken busy) held = some held := by
  rw [check, htaken, Option.bind_some, if_pos hbusy]

theorem check_release {lock : L} :
    check R base (.release lock) (lock :: held) = some held := by
  rw [check, if_pos List.mem_cons_self, List.erase_cons_head]

end Keeps

/-- The check of all that a thread has still to do. -/
def checkAll (R : Ranking L T ρ) (base : ρ) (todo : List (Code L T)) (held : List L) :
    Option (List L) :=
  todo.foldlM (fun held code ↦ check R base code held) held

/-- **What each thread has still to do is in order**, for the locks that it holds; and it gives them
back in the end. -/
structure Orderly (R : Ranking L T ρ) (s : State L T) (held : T → List L) : Prop where
  todo : ∀ t, checkAll R (R.thread t) (s.todo t) (held t) = some []
  holder : ∀ t lock, lock ∈ held t ↔ s.holder lock = some t
  nodup : ∀ t, (held t).Nodup
  started : ∀ t, s.started t = false → held t = []

section Steps

variable {R : Ranking L T ρ} {s : State L T} {held : T → List L}

omit [DecidableEq T] in
theorem checkAll_cons {base : ρ} {code : Code L T} {todo : List (Code L T)} {held : List L}
    {after : List L} : checkAll R base (code :: todo) held = some after ↔
      ∃ between, check R base code held = some between ∧
        checkAll R base todo between = some after := by
  rw [checkAll, List.foldlM_cons, Option.bind_eq_bind, Option.bind_eq_some_iff]
  rfl

omit [DecidableEq T] in
theorem orderly_init (code : T → Code L T) (started : T → Bool)
    (hcode : ∀ t, check R (R.thread t) (code t) [] = some []) :
    Orderly R (init code started) fun _ ↦ [] where
  todo t := checkAll_cons.2 ⟨[], hcode t, rfl⟩
  holder t lock := by simp [init]
  nodup t := List.nodup_nil
  started t _ := rfl

/-- A thread goes on with other code, and holds what it held. -/
theorem Orderly.goOn (h : Orderly R s held) {t : T} {todo : List (Code L T)}
    (htodo : checkAll R (R.thread t) todo (held t) = some []) : Orderly R (s.goOn t todo) held where
  todo u := by
    rw [State.goOn_todo]
    split_ifs with hu
    · exact hu ▸ htodo
    · exact h.todo u
  holder := h.holder
  nodup := h.nodup
  started := h.started

/-- A thread takes a free lock. -/
theorem Orderly.take (h : Orderly R s held) {t : T} (ht : s.started t = true) {lock : L}
    (hfree : s.holder lock = none) {todo : List (Code L T)}
    (htodo : checkAll R (R.thread t) todo (lock :: held t) = some []) :
    Orderly R ((s.goOn t todo).hand lock (some t)) (Function.update held t (lock :: held t)) := by
  have hnot (u : T) : lock ∉ held u := fun hmem ↦ by
    rw [(h.holder u lock).1 hmem] at hfree
    cases hfree
  refine ⟨fun u ↦ ?_, fun u l ↦ ?_, fun u ↦ ?_, fun u hu ↦ ?_⟩
  · rw [State.hand_todo, State.goOn_todo, Function.update_apply]
    split_ifs with hu
    · exact hu ▸ htodo
    · exact h.todo u
  · rw [State.hand_holder, State.goOn_holder, Function.update_apply]
    split_ifs with hu hl hl
    · simp [hu, hl]
    · rw [List.mem_cons, or_iff_right hl, hu]
      exact h.holder t l
    · rw [hl, Option.some.injEq]
      exact iff_of_false (hnot u) (Ne.symm hu)
    · exact h.holder u l
  · rw [Function.update_apply]
    split_ifs with hu
    · exact List.nodup_cons.2 ⟨hnot t, h.nodup t⟩
    · exact h.nodup u
  · rw [Function.update_apply, if_neg]
    · exact h.started u hu
    · rintro rfl
      exact absurd (ht.symm.trans hu) (by decide)

/-- A thread gives a lock back. -/
theorem Orderly.give (h : Orderly R s held) {t : T} {lock : L} {todo : List (Code L T)}
    (hholds : s.holder lock = some t)
    (htodo : checkAll R (R.thread t) todo ((held t).erase lock) = some []) :
    Orderly R ((s.goOn t todo).hand lock none)
      (Function.update held t ((held t).erase lock)) := by
  refine ⟨fun u ↦ ?_, fun u l ↦ ?_, fun u ↦ ?_, fun u hu ↦ ?_⟩
  · rw [State.hand_todo, State.goOn_todo, Function.update_apply]
    split_ifs with hu
    · exact hu ▸ htodo
    · exact h.todo u
  · rw [State.hand_holder, State.goOn_holder, Function.update_apply]
    split_ifs with hu hl hl
    · rw [hl, (h.nodup t).mem_erase_iff]
      simp
    · rw [List.mem_erase_of_ne hl, hu]
      exact h.holder t l
    · refine iff_of_false (fun hmem ↦ hu ?_) (by simp)
      exact Option.some.inj (((h.holder u lock).1 (hl ▸ hmem)).symm.trans hholds)
    · exact h.holder u l
  · rw [Function.update_apply]
    split_ifs with hu
    · exact (h.nodup t).erase lock
    · exact h.nodup u
  · rw [Function.update_apply]
    split_ifs with hut
    · rw [hut] at hu
      rw [h.started t hu]
      rfl
    · exact h.started u hu

/-- **A step keeps the order**, one case for each thing that code can do. -/
theorem Orderly.step (h : Orderly R s held) {action : T × Bool} {s' : State L T}
    (hstep : system.step s action = some s') : ∃ held', Orderly R s' held' := by
  obtain ⟨t, bit⟩ := action
  have htodo := h.todo t
  rw [system] at hstep
  dsimp only at hstep
  by_cases ht : s.started t = true
  swap
  · rw [if_neg ht] at hstep
    cases hstep
  rw [if_pos ht] at hstep
  cases hcodes : s.todo t with
  | nil =>
    rw [hcodes] at hstep
    cases hstep
  | cons code rest =>
    rw [hcodes] at hstep htodo
    obtain ⟨between, hcode, hrest⟩ := checkAll_cons.1 htodo
    cases code with
    | skip =>
      obtain rfl := Option.some.inj hstep
      obtain rfl := Option.some.inj hcode
      exact ⟨held, h.goOn hrest⟩
    | acquire lock =>
      obtain ⟨hfree, hs'⟩ := Option.ite_none_right_eq_some.1 hstep
      obtain ⟨-, hbetween⟩ := Option.ite_none_right_eq_some.1 hcode
      obtain rfl := Option.some.inj hs'
      obtain rfl := Option.some.inj hbetween
      exact ⟨_, h.take ht hfree hrest⟩
    | release lock =>
      obtain ⟨hholds, hs'⟩ := Option.ite_none_right_eq_some.1 hstep
      obtain ⟨-, hbetween⟩ := Option.ite_none_right_eq_some.1 hcode
      obtain rfl := Option.some.inj hs'
      obtain rfl := Option.some.inj hbetween
      exact ⟨_, h.give hholds hrest⟩
    | attempt lock taken busy =>
      obtain ⟨after, htaken, hif⟩ := Option.bind_eq_some_iff.1 hcode
      obtain ⟨hbusy, hafter⟩ := Option.ite_none_right_eq_some.1 hif
      obtain rfl := Option.some.inj hafter
      rw [State.next] at hstep
      by_cases hfree : s.holder lock = none
      · rw [if_pos hfree] at hstep
        obtain rfl := Option.some.inj hstep
        exact ⟨_, h.take ht hfree (checkAll_cons.2 ⟨_, htaken, hrest⟩)⟩
      · rw [if_neg hfree] at hstep
        obtain rfl := Option.some.inj hstep
        exact ⟨held, h.goOn (checkAll_cons.2 ⟨_, hbusy, hrest⟩)⟩
    | start u =>
      obtain rfl := Option.some.inj hstep
      obtain rfl := Option.some.inj hcode
      have hnext := h.goOn hrest
      refine ⟨held, hnext.todo, hnext.holder, hnext.nodup, fun v hv ↦ ?_⟩
      rw [State.start_started] at hv
      split_ifs at hv
      exact h.started v hv
    | join u =>
      obtain ⟨-, hbetween⟩ := Option.ite_none_right_eq_some.1 hcode
      obtain rfl := Option.some.inj hbetween
      rw [State.next] at hstep
      by_cases hu : s.running u = true
      · rw [if_pos hu] at hstep
        cases hstep
      · rw [if_neg hu] at hstep
        obtain rfl := Option.some.inj hstep
        exact ⟨held, h.goOn hrest⟩
    | seq first next =>
      obtain rfl := Option.some.inj hstep
      obtain ⟨middle, hfirst, hnext⟩ := Option.bind_eq_some_iff.1 hcode
      exact ⟨held, h.goOn (checkAll_cons.2 ⟨middle, hfirst, checkAll_cons.2 ⟨_, hnext, hrest⟩⟩)⟩
    | either one other =>
      obtain rfl := Option.some.inj hstep
      obtain ⟨after, hone, hif⟩ := Option.bind_eq_some_iff.1 hcode
      obtain ⟨hother, hafter⟩ := Option.ite_none_right_eq_some.1 hif
      obtain rfl := Option.some.inj hafter
      refine ⟨held, h.goOn (checkAll_cons.2 ⟨_, ?_, hrest⟩)⟩
      cases bit
      exacts [hother, hone]
    | loop body =>
      obtain rfl := Option.some.inj hstep
      obtain ⟨hbody, hbetween⟩ := Option.ite_none_right_eq_some.1 hcode
      obtain rfl := Option.some.inj hbetween
      refine ⟨held, h.goOn ?_⟩
      cases bit
      · exact hrest
      · exact checkAll_cons.2 ⟨_, hbody, htodo⟩

/-! ### Waiting -/

omit [DecidableEq T] in
/-- A thread that has ended holds nothing. -/
theorem Orderly.held_eq_nil (h : Orderly R s held) {t : T} (ht : s.running t = false) :
    held t = [] := by
  rw [State.running, Bool.and_eq_false_iff, Bool.not_eq_false', List.isEmpty_iff] at ht
  rcases ht with hstarted | hended
  · exact h.started t hstarted
  · have htodo := h.todo t
    rw [hended] at htodo
    exact Option.some.inj htodo

/-- **A thread that cannot go on waits for one that has not ended**, and that holds, or is,
something that ranks above all that the thread holds. -/
theorem Orderly.exists_waitsFor (h : Orderly R s held) {t : T} (ht : s.running t = true)
    (hstuck : ¬s.CanStep t) : ∃ u r, s.WaitsFor t u ∧ s.running u = true ∧
      (r = R.thread u ∨ ∃ lock ∈ held u, r = R.lock lock) ∧
      R.Above (R.thread t) (held t) r := by
  have hstarted : s.started t = true := (Bool.and_eq_true_iff.1 ht).1
  have htodo := h.todo t
  have hcan {s' : State L T} (bit : Bool) (hnext : s.next t bit (s.todo t) = some s') : False :=
    hstuck ⟨bit, s', (if_pos hstarted).trans hnext⟩
  cases hcodes : s.todo t with
  | nil =>
    rw [State.running, hcodes] at ht
    simp at ht
  | cons code rest =>
    rw [hcodes] at htodo hcan
    obtain ⟨between, hcode, -⟩ := checkAll_cons.1 htodo
    cases code with
    | skip | start | seq | either | loop => exact (hcan true rfl).elim
    | acquire lock =>
      obtain ⟨habove, -⟩ := Option.ite_none_right_eq_some.1 hcode
      cases hholder : s.holder lock with
      | none => exact (hcan true (if_pos hholder)).elim
      | some u =>
        have hmem := (h.holder u lock).2 hholder
        refine ⟨u, _, ⟨ht, .inl ⟨lock, rest, hcodes, hholder⟩⟩, ?_, .inr ⟨lock, hmem, rfl⟩, habove⟩
        by_contra hended
        rw [h.held_eq_nil (Bool.not_eq_true _ ▸ hended)] at hmem
        cases hmem
    | release lock =>
      obtain ⟨hmem, -⟩ := Option.ite_none_right_eq_some.1 hcode
      exact (hcan true (if_pos ((h.holder t lock).1 hmem))).elim
    | attempt lock taken busy =>
      by_cases hfree : s.holder lock = none
      · exact (hcan true (if_pos hfree)).elim
      · exact (hcan true (if_neg hfree)).elim
    | join u =>
      obtain ⟨habove, -⟩ := Option.ite_none_right_eq_some.1 hcode
      by_cases hu : s.running u = true
      · exact ⟨u, _, ⟨ht, .inr ⟨rest, hcodes, hu⟩⟩, hu, .inl rfl, habove⟩
      · exact (hcan true (if_neg hu)).elim

/-- Every thread that has not ended waits for one that can go on. The ranks rise along the way, so
it comes to an end. -/
theorem Orderly.exists_canStep [WellFoundedGT ρ] (h : Orderly R s held) {t : T}
    (ht : s.running t = true) : ∃ u, Relation.ReflTransGen s.WaitsFor t u ∧ s.CanStep u := by
  have hrise : ∀ r t, s.running t = true → (r = R.thread t ∨ ∃ lock ∈ held t, r = R.lock lock) →
      ∃ u, Relation.ReflTransGen s.WaitsFor t u ∧ s.CanStep u := by
    intro r
    induction r using WellFoundedGT.induction with
    | ind r ih =>
      intro t ht hr
      by_cases hcan : s.CanStep t
      · exact ⟨t, .refl, hcan⟩
      obtain ⟨u, r', hwaits, hu, hr', hbase, hheld⟩ := h.exists_waitsFor ht hcan
      have hlt : r < r' := by
        rcases hr with rfl | ⟨lock, hlock, rfl⟩
        exacts [hbase, hheld lock hlock]
      obtain ⟨v, hv, hstep⟩ := ih r' hlt u hu hr'
      exact ⟨v, .head hwaits hv, hstep⟩
  exact hrise _ t ht (.inl rfl)

end Steps

/-! ### Runs -/

section Runs

variable {R : Ranking L T ρ} {code : T → Code L T} {started : T → Bool} {actions : List (T × Bool)}
  {s : State L T}

theorem exists_orderly (hcode : ∀ t, check R (R.thread t) (code t) [] = some [])
    (hrun : system.run (init code started) actions = some s) : ∃ held, Orderly R s held :=
  StepSystem.run_invariant (P := fun s ↦ ∃ held, Orderly R s held)
    (fun _ _ _ ⟨_, h⟩ hstep ↦ h.step hstep) ⟨_, orderly_init code started hcode⟩ hrun

/-- **Where all threads keep to the order, none is stuck.** -/
theorem exists_canStep [WellFoundedGT ρ]
    (hcode : ∀ t, check R (R.thread t) (code t) [] = some [])
    (hrun : system.run (init code started) actions = some s) {t : T} (ht : s.running t = true) :
    ∃ u, Relation.ReflTransGen s.WaitsFor t u ∧ s.CanStep u := by
  obtain ⟨held, h⟩ := exists_orderly hcode hrun
  exact h.exists_canStep ht

/-- A thread that has ended has given all its locks back. -/
theorem running_of_holder (hcode : ∀ t, check R (R.thread t) (code t) [] = some [])
    (hrun : system.run (init code started) actions = some s) {t : T} {lock : L}
    (hholder : s.holder lock = some t) : s.running t = true := by
  obtain ⟨held, h⟩ := exists_orderly hcode hrun
  by_contra hended
  have hmem := (h.holder t lock).2 hholder
  rw [h.held_eq_nil (Bool.not_eq_true _ ▸ hended)] at hmem
  cases hmem

end Runs

end LockOrder
