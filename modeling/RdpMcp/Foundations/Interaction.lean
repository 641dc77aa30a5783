import Mathlib.Data.List.Basic

/-!
# Programs that ask

A program whose effects are **requests answered from outside**: it either is done or asks something
and goes on with the answer. The answer's type depends on the request. Nothing is said about who
answers, so one and the same program can be run against a scheduler, a test or a fixed table of
answers.

Two views carry most of what follows.

* `AllAsks P` holds when every request the program can make, **whatever it is answered**, satisfies
  `P`. It is compositional: `allAsks_bind`, and for programs that can stop early `allAsks_except`.
* `transcript answer` is the list of requests made when every request is answered as `answer` says.

`AllSteps Q` is `AllAsks` for a condition that also looks at what follows a request.

Stopping early is `ExceptT` over this monad and needs nothing of its own, apart from the loop rules
at the end.
-/

/-- A program that asks requests of type `A`, is answered by `R`, and returns an `α`. -/
inductive Interaction (A : Type) (R : A → Type) (α : Type) where
  | done (value : α)
  | ask (request : A) (next : R request → Interaction A R α)

namespace Interaction

variable {A : Type} {R : A → Type} {α β γ : Type}

/-- One program after another. -/
def bind : Interaction A R α → (α → Interaction A R β) → Interaction A R β
  | done value, f => f value
  | ask request next, f => ask request fun answer ↦ (next answer).bind f

instance : Monad (Interaction A R) where
  pure := done
  bind := bind

/-! ### Every request a program can make -/

/-- Every request the program can make satisfies `P`, whatever the answers. -/
def AllAsks (P : A → Prop) : Interaction A R α → Prop
  | done _ => True
  | ask request next => P request ∧ ∀ answer, (next answer).AllAsks P

variable {P : A → Prop}

theorem allAsks_bind {p : Interaction A R α} {f : α → Interaction A R β} (hp : p.AllAsks P)
    (hf : ∀ value, (f value).AllAsks P) : (p >>= f).AllAsks P := by
  induction p with
  | done value => exact hf value
  | ask request next ih => exact ⟨hp.1, fun answer ↦ ih answer (hp.2 answer)⟩

/-- Every request the program can make, together with what follows it, satisfies `Q`. -/
def AllSteps (Q : (a : A) → (R a → Interaction A R α) → Prop) : Interaction A R α → Prop
  | done _ => True
  | ask request next => Q request next ∧ ∀ answer, (next answer).AllSteps Q

theorem AllAsks.allSteps {Q : (a : A) → (R a → Interaction A R α) → Prop} {p : Interaction A R α}
    (hp : p.AllAsks P) (hQ : ∀ request next, P request → Q request next) : p.AllSteps Q := by
  induction p with
  | done value => trivial
  | ask request next ih =>
    exact ⟨hQ request next hp.1, fun answer ↦ ih answer (hp.2 answer)⟩

/-! ### Transcripts -/

section Transcript

variable (answer : ∀ a, R a)

/-- The requests made when each is answered by a fixed table. -/
def transcript : Interaction A R α → List A
  | done _ => []
  | ask request next => request :: (next (answer request)).transcript

/-- What is returned then. -/
def outcome : Interaction A R α → α
  | done value => value
  | ask request next => (next (answer request)).outcome

@[simp]
theorem transcript_bind (p : Interaction A R α) (f : α → Interaction A R β) :
    (p >>= f).transcript answer =
      p.transcript answer ++ (f (p.outcome answer)).transcript answer := by
  induction p with
  | done value => rfl
  | ask request next ih => exact congrArg (request :: ·) (ih (answer request))

@[simp]
theorem outcome_bind (p : Interaction A R α) (f : α → Interaction A R β) :
    (p >>= f).outcome answer = (f (p.outcome answer)).outcome answer := by
  induction p with
  | done value => rfl
  | ask request next ih => exact ih (answer request)

/-- What is asked along one path is asked. -/
theorem AllAsks.of_mem_transcript {p : Interaction A R α} (hp : p.AllAsks P) {a : A}
    (h : a ∈ p.transcript answer) : P a := by
  induction p with
  | done value => exact absurd h List.not_mem_nil
  | ask request next ih =>
    rcases List.mem_cons.1 h with rfl | h
    · exact hp.1
    · exact ih (answer request) (hp.2 (answer request)) h

end Transcript

/-! ### Stopping early -/

section Except

variable {ε : Type}

/-- A sequence of fallible programs. -/
theorem allAsks_except {p : ExceptT ε (Interaction A R) α}
    {f : α → ExceptT ε (Interaction A R) β} (hp : p.run.AllAsks P)
    (hf : ∀ value, (f value).run.AllAsks P) : (p >>= f).run.AllAsks P := by
  refine allAsks_bind hp fun value ↦ ?_
  cases value with
  | error e => trivial
  | ok value => exact hf value

/-- A loop of fallible programs. -/
theorem allAsks_forM {f : β → ExceptT ε (Interaction A R) PUnit} {bs : List β}
    (hf : ∀ b ∈ bs, (f b).run.AllAsks P) : (bs.forM f).run.AllAsks P := by
  induction bs with
  | nil => trivial
  | cons b bs ih =>
    exact allAsks_except (hf b List.mem_cons_self) fun _ ↦
      ih fun b' hb' ↦ hf b' (List.mem_cons_of_mem b hb')

variable {answer : ∀ a, R a}

/-- A fallible program that succeeds hands over to the next. -/
theorem transcript_except_ok {p : ExceptT ε (Interaction A R) α}
    {f : α → ExceptT ε (Interaction A R) β} {value : α} (hp : p.run.outcome answer = .ok value) :
    (p >>= f).run.transcript answer =
      p.run.transcript answer ++ (f value).run.transcript answer := by
  refine (transcript_bind answer p.run _).trans ?_
  rw [hp]
  rfl

theorem outcome_except_ok {p : ExceptT ε (Interaction A R) α}
    {f : α → ExceptT ε (Interaction A R) β} {value : α} (hp : p.run.outcome answer = .ok value) :
    (p >>= f).run.outcome answer = (f value).run.outcome answer := by
  refine (outcome_bind answer p.run _).trans ?_
  rw [hp]
  rfl

/-- A loop whose rounds all succeed asks what the rounds ask, one after the other. -/
theorem outcome_forM_ok {f : β → ExceptT ε (Interaction A R) PUnit} {bs : List β}
    (hf : ∀ b ∈ bs, (f b).run.outcome answer = .ok ()) :
    (bs.forM f).run.outcome answer = .ok () ∧
      (bs.forM f).run.transcript answer = bs.flatMap fun b ↦ (f b).run.transcript answer := by
  induction bs with
  | nil => exact ⟨rfl, rfl⟩
  | cons b bs ih =>
    have hb := hf b List.mem_cons_self
    obtain ⟨hout, htranscript⟩ := ih fun b' hb' ↦ hf b' (List.mem_cons_of_mem b hb')
    refine ⟨(outcome_except_ok hb).trans hout, (transcript_except_ok hb).trans ?_⟩
    rw [htranscript, List.flatMap_cons]

end Except

end Interaction
