import RdpMcp.Foundations.Interaction

/-!
# Programs that follow a script

Some programs know beforehand what they will ask: one request after the other from a list, up to the
first that fails, with whose error they return. `Follows` says so of a program and its **script**,
and is compositional (`follows_except`, `follows_forM`).

What such a program does is told without running it: what has been granted is a prefix of the script
(`Follows.granted_isPrefix`), and what stands before a request in the script has been granted when
it is made (`Follows.before_request`).
-/

namespace Interaction

variable {A : Type} {R : A → Type} {α β ε : Type}

/-! ### Dialogues -/

/-- The program makes the requests of the log, is answered as the log says, and returns a value. -/
def Dialogue : Interaction A R α → List ((a : A) × R a) → α → Prop
  | done value, log, result => log = [] ∧ result = value
  | ask request next, log, result =>
    ∃ answer rest, log = ⟨request, answer⟩ :: rest ∧ (next answer).Dialogue rest result

/-! ### Scripts -/

variable (failure : (a : A) → R a → Option ε)

/-- The program asks the requests of the script, and returns at the first that fails. -/
def Follows : Interaction A R (Except ε Unit) → List A → Prop
  | done result, script => result = .ok () ∧ script = []
  | ask request next, script =>
    ∃ rest, script = request :: rest ∧ ∀ answer,
      match failure request answer with
      | none => (next answer).Follows rest
      | some e => next answer = done (.error e)

/-- The requests of a log that have been granted. -/
def granted (log : List ((a : A) × R a)) : List A :=
  (log.filter fun entry ↦ (failure entry.1 entry.2).isNone).map Sigma.fst

variable {failure}

/-- A program that succeeds hands over to the next. -/
theorem Follows.bind {p : Interaction A R (Except ε Unit)} {script script' : List A}
    {f : Except ε Unit → Interaction A R (Except ε Unit)} (hp : p.Follows failure script)
    (hok : (f (.ok ())).Follows failure script') (herror : ∀ e, f (.error e) = done (.error e)) :
    (p >>= f).Follows failure (script ++ script') := by
  induction p generalizing script with
  | done result =>
    obtain ⟨rfl, rfl⟩ := hp
    exact hok
  | ask request next ih =>
    obtain ⟨rest, rfl, hnext⟩ := hp
    refine ⟨rest ++ script', rfl, fun answer ↦ ?_⟩
    have hanswer := hnext answer
    cases hfailure : failure request answer with
    | none =>
      rw [hfailure] at hanswer
      exact ih answer hanswer
    | some e =>
      rw [hfailure] at hanswer
      dsimp only at hanswer ⊢
      rw [hanswer]
      exact herror e

theorem follows_except {p : ExceptT ε (Interaction A R) Unit}
    {f : Unit → ExceptT ε (Interaction A R) Unit} {script script' : List A}
    (hp : p.run.Follows failure script) (hf : (f ()).run.Follows failure script') :
    (p >>= f).run.Follows failure (script ++ script') :=
  Follows.bind hp hf fun _ ↦ rfl

theorem follows_forM {f : β → ExceptT ε (Interaction A R) Unit} {script : β → List A} (bs : List β)
    (hf : ∀ b ∈ bs, (f b).run.Follows failure (script b)) :
    (bs.forM f).run.Follows failure (bs.flatMap script) := by
  induction bs with
  | nil => exact ⟨rfl, rfl⟩
  | cons b bs ih =>
    exact follows_except (hf b List.mem_cons_self)
      (ih fun b' hb' ↦ hf b' (List.mem_cons_of_mem b hb'))

/-! ### What a program that follows a script does -/

variable {p : Interaction A R (Except ε Unit)} {script : List A} {log : List ((a : A) × R a)}
  {result : Except ε Unit}

/-- **A dialogue of a program that follows a script** goes through it, or breaks off with the first
request that fails. -/
theorem Follows.dialogue (h : p.Follows failure script) (hlog : p.Dialogue log result) :
    (result = .ok () ∧ log.map Sigma.fst = script ∧
        ∀ entry ∈ log, failure entry.1 entry.2 = none) ∨
      ∃ front last e rest, result = .error e ∧ log = front ++ [last] ∧
        script = front.map Sigma.fst ++ last.1 :: rest ∧
        (∀ entry ∈ front, failure entry.1 entry.2 = none) ∧ failure last.1 last.2 = some e := by
  induction p generalizing script log with
  | done value =>
    obtain ⟨rfl, rfl⟩ := h
    obtain ⟨rfl, rfl⟩ := hlog
    exact .inl ⟨rfl, rfl, fun entry hmem ↦ absurd hmem List.not_mem_nil⟩
  | ask request next ih =>
    obtain ⟨rest, rfl, hnext⟩ := h
    obtain ⟨answer, log', rfl, hlog'⟩ := hlog
    have hanswer := hnext answer
    cases hfailure : failure request answer with
    | none =>
      rw [hfailure] at hanswer
      rcases ih answer hanswer hlog' with ⟨hresult, hscript, hgranted⟩ |
        ⟨front, last, e, rest', hresult, hfront, hscript, hgranted, hlast⟩
      · refine .inl ⟨hresult, congrArg (request :: ·) hscript, ?_⟩
        exact List.forall_mem_cons.2 ⟨hfailure, hgranted⟩
      · refine .inr ⟨⟨request, answer⟩ :: front, last, e, rest', hresult, ?_, ?_, ?_, hlast⟩
        · rw [hfront, List.cons_append]
        · rw [hscript, List.map_cons, List.cons_append]
        · exact List.forall_mem_cons.2 ⟨hfailure, hgranted⟩
    | some e =>
      rw [hfailure] at hanswer
      dsimp only at hanswer
      rw [hanswer] at hlog'
      obtain ⟨rfl, rfl⟩ := hlog'
      exact .inr ⟨[], ⟨request, answer⟩, e, rest, rfl, rfl, rfl,
        fun entry hmem ↦ absurd hmem List.not_mem_nil, hfailure⟩

/-- Where nothing fails, the whole script is asked. -/
theorem Follows.transcript_eq (h : p.Follows failure script) {answer : ∀ a, R a}
    (hanswer : ∀ a, failure a (answer a) = none) : p.transcript answer = script := by
  induction p generalizing script with
  | done value => exact h.2.symm
  | ask request next ih =>
    obtain ⟨rest, rfl, hnext⟩ := h
    have hfollows := hnext (answer request)
    rw [hanswer request] at hfollows
    exact congrArg (request :: ·) (ih (answer request) hfollows)

theorem granted_of_forall (h : ∀ entry ∈ log, failure entry.1 entry.2 = none) :
    granted failure log = log.map Sigma.fst := by
  rw [granted, List.filter_eq_self.2 fun entry hmem ↦ by rw [h entry hmem]; rfl]

/-- **What is granted** is a prefix of the script, and the whole script if the program succeeds. -/
theorem Follows.granted_isPrefix (h : p.Follows failure script) (hlog : p.Dialogue log result) :
    granted failure log <+: script ∧ (result = .ok () → granted failure log = script) := by
  rcases h.dialogue hlog with ⟨-, hscript, hgranted⟩ |
    ⟨front, last, e, rest, rfl, rfl, rfl, hgranted, hlast⟩
  · rw [granted_of_forall hgranted, hscript]
    exact ⟨List.prefix_rfl, fun _ ↦ rfl⟩
  · have hfront : granted failure (front ++ [last]) = front.map Sigma.fst := by
      rw [granted, List.filter_append, List.map_append, ← granted, granted_of_forall hgranted,
        List.filter_singleton, hlast]
      exact List.append_nil _
    rw [hfront]
    exact ⟨List.prefix_append _ _, nofun⟩

/-- **Before a request**, all that stands before it in the script has been granted. -/
theorem Follows.before_request (h : p.Follows failure script)
    {pre post : List ((a : A) × R a)} {entry : (a : A) × R a}
    (hlog : p.Dialogue (pre ++ entry :: post) result) :
    ∃ rest, script = granted failure pre ++ entry.1 :: rest := by
  rcases h.dialogue hlog with ⟨-, hscript, hgranted⟩ |
    ⟨front, last, e, rest, -, hfront, hscript, hgranted, -⟩
  · refine ⟨post.map Sigma.fst, ?_⟩
    rw [granted_of_forall fun other hmem ↦ hgranted other (List.mem_append_left _ hmem), ← hscript,
      List.map_append, List.map_cons]
  · rcases List.eq_nil_or_concat post with rfl | ⟨post', last', rfl⟩
    · obtain ⟨rfl, hsingle⟩ := List.append_inj' hfront rfl
      obtain rfl := List.head_eq_of_cons_eq hsingle
      rw [granted_of_forall hgranted]
      exact ⟨rest, hscript⟩
    · have hsplit : (pre ++ entry :: post') ++ [last'] = front ++ [last] := by
        rw [← hfront, List.append_assoc, List.cons_append, List.concat_eq_append]
      obtain ⟨rfl, -⟩ := List.append_inj' hsplit rfl
      refine ⟨post'.map Sigma.fst ++ last.1 :: rest, ?_⟩
      rw [granted_of_forall fun other hmem ↦ hgranted other (List.mem_append_left _ hmem), hscript,
        List.map_append, List.map_cons, List.append_assoc, List.cons_append]

end Interaction
