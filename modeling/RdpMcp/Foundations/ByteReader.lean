import Mathlib.Data.List.Basic

/-!
# Byte streams that arrive in pieces

A reader is what an operating system hands out: the bytes are fixed, how they arrive is not. Each
`read` returns **some** bytes, at most as many as asked for, or is interrupted, or fails. A stream
is the list of what will arrive (`ReadEvent`), a nonempty piece of data, an interruption or a
failure; the end of the list is the end of the file, which is reported as a read of no bytes.
Reading less than a piece leaves the remainder to be read next, so every sequence of short reads is
some list of pieces.

Two loops are built on `read`. `readExact` fills a buffer or fails, retrying interruptions;
`readFirst` asks for one element and tells the end of the stream from a failure. Both are given by
recursion on the stream, and `readExact_succ` and `readFirst_eq` say that they are the loops.

The point of the module is **independence of fragmentation**: on a stream without failures, what the
two loops return depends on `bytes`, the concatenation of the data, and on nothing else.
-/

namespace ByteReader

variable {α ε : Type*}

/-- What the next reads of a stream will find. -/
inductive ReadEvent (α ε : Type*) where
  | data (head : α) (tail : List α)
  | interrupted
  | failed (error : ε)

/-- The data of a stream. -/
def bytes : List (ReadEvent α ε) → List α
  | [] => []
  | .data head tail :: events => head :: tail ++ bytes events
  | .interrupted :: events => bytes events
  | .failed _ :: events => bytes events

/-- A stream whose reads never fail. -/
def Reliable (events : List (ReadEvent α ε)) : Prop :=
  ∀ error, ReadEvent.failed error ∉ events

/-- Put unread data back in front of a stream. -/
def unread (xs : List α) (events : List (ReadEvent α ε)) : List (ReadEvent α ε) :=
  match xs with
  | [] => events
  | x :: xs => .data x xs :: events

@[simp]
theorem bytes_unread (xs : List α) (events : List (ReadEvent α ε)) :
    bytes (unread xs events) = xs ++ bytes events := by
  cases xs <;> rfl

theorem Reliable.unread {events : List (ReadEvent α ε)} (h : Reliable events) (xs : List α) :
    Reliable (unread xs events) := by
  cases xs with
  | nil => exact h
  | cons x xs => exact fun error hmem ↦ h error (by simpa [ByteReader.unread] using hmem)

theorem Reliable.of_cons {event : ReadEvent α ε} {events : List (ReadEvent α ε)}
    (h : Reliable (event :: events)) : Reliable events :=
  fun error hmem ↦ h error (List.mem_cons_of_mem _ hmem)

/-! ### Reading -/

/-- The result of one read. No bytes is the end of the stream. -/
inductive ReadResult (α ε : Type*) where
  | ok (xs : List α)
  | interrupted
  | failed (error : ε)

/-- One read into a buffer of `n` elements. -/
def read (n : ℕ) : List (ReadEvent α ε) → ReadResult α ε × List (ReadEvent α ε)
  | [] => (.ok [], [])
  | .data head tail :: events =>
    (.ok ((head :: tail).take n), unread ((head :: tail).drop n) events)
  | .interrupted :: events => (.interrupted, events)
  | .failed error :: events => (.failed error, events)

/-- Why a buffer could not be filled. -/
inductive ReadError (ε : Type*) where
  | io (error : ε)
  | unexpectedEof
  deriving DecidableEq, Repr

/-- How far a buffer was filled, and what became of it. -/
structure Filled (α ε : Type*) where
  filled : List α
  outcome : Except (ReadError ε) Unit
  rest : List (ReadEvent α ε)

/-- Fill a buffer of `n` elements. -/
def readExact (n : ℕ) : List (ReadEvent α ε) → Filled α ε
  | [] => if n = 0 then ⟨[], .ok (), []⟩ else ⟨[], .error .unexpectedEof, []⟩
  | .data head tail :: events =>
    if tail.length + 1 < n then
      let next := readExact (n - (tail.length + 1)) events
      ⟨head :: tail ++ next.filled, next.outcome, next.rest⟩
    else ⟨(head :: tail).take n, .ok (), unread ((head :: tail).drop n) events⟩
  | .interrupted :: events =>
    if n = 0 then ⟨[], .ok (), .interrupted :: events⟩ else readExact n events
  | .failed error :: events =>
    if n = 0 then ⟨[], .ok (), .failed error :: events⟩ else ⟨[], .error (.io error), events⟩

/-- Ask for one element until there is one, or the stream ends or fails. -/
def readFirst : List (ReadEvent α ε) → Except ε (Option α) × List (ReadEvent α ε)
  | [] => (.ok none, [])
  | .data head tail :: events => (.ok (some head), unread tail events)
  | .interrupted :: events => readFirst events
  | .failed error :: events => (.error error, events)

theorem readExact_zero (events : List (ReadEvent α ε)) :
    readExact 0 events = ⟨[], .ok (), events⟩ := by
  rcases events with - | ⟨⟨head, tail⟩ | - | error, events⟩ <;> rfl

/-- **`readExact` is the loop** that reads into what is left of the buffer until nothing is left. -/
theorem readExact_succ (n : ℕ) (events : List (ReadEvent α ε)) :
    readExact (n + 1) events =
      match read (n + 1) events with
      | (.ok [], rest) => ⟨[], .error .unexpectedEof, rest⟩
      | (.ok xs, rest) =>
        let next := readExact (n + 1 - xs.length) rest
        ⟨xs ++ next.filled, next.outcome, next.rest⟩
      | (.interrupted, rest) => readExact (n + 1) rest
      | (.failed error, rest) => ⟨[], .error (.io error), rest⟩ := by
  rcases events with - | ⟨⟨head, tail⟩ | - | error, events⟩
  · rfl
  · by_cases hshort : tail.length < n
    · simp [readExact, read, unread, hshort, List.take_of_length_le (Nat.le_of_lt hshort),
        List.drop_of_length_le (Nat.le_of_lt hshort)]
    · have hzero : n - min n tail.length = 0 := by omega
      simp [readExact, read, hshort, hzero, readExact_zero]
  · rfl
  · rfl

/-- `readFirst` is the loop that reads into a buffer of one element. -/
theorem readFirst_eq (events : List (ReadEvent α ε)) :
    readFirst events =
      match read 1 events with
      | (.ok [], rest) => (.ok none, rest)
      | (.ok (x :: _), rest) => (.ok (some x), rest)
      | (.interrupted, rest) => readFirst rest
      | (.failed error, rest) => (.error error, rest) := by
  rcases events with - | ⟨⟨head, tail⟩ | - | error, events⟩ <;> rfl

/-! ### Progress -/

theorem length_bytes_readExact_le (n : ℕ) (events : List (ReadEvent α ε)) :
    (bytes (readExact n events).rest).length ≤ (bytes events).length := by
  induction events generalizing n with
  | nil => cases n <;> simp [readExact, bytes]
  | cons event events ih =>
    rcases event with ⟨head, tail⟩ | - | error
    · simp only [readExact]
      split
      · have := ih (n - (tail.length + 1))
        simp only [bytes, List.length_append, List.length_cons]
        omega
      · simp only [bytes_unread, bytes, List.length_append, List.length_drop]
        omega
    · by_cases hn : n = 0
      · simp [readExact, hn]
      · simpa [readExact, hn, bytes] using ih n
    · by_cases hn : n = 0 <;> simp [readExact, hn, bytes]

theorem length_bytes_readFirst_lt {events rest : List (ReadEvent α ε)} {x : α}
    (h : readFirst events = (.ok (some x), rest)) :
    (bytes rest).length < (bytes events).length := by
  induction events with
  | nil => cases h
  | cons event events ih =>
    rcases event with ⟨head, tail⟩ | - | error
    · obtain ⟨-, rfl⟩ := Prod.mk.inj h
      simp [bytes]
    · exact ih h
    · cases h

/-! ### Independence of fragmentation -/

/-- **Enough data fills the buffer**, with the first elements of the data, and leaves the others. -/
theorem readExact_of_append {events : List (ReadEvent α ε)} (h : Reliable events) {xs ys : List α}
    (hbytes : bytes events = xs ++ ys) :
    ∃ rest, readExact xs.length events = ⟨xs, .ok (), rest⟩ ∧ Reliable rest ∧ bytes rest = ys := by
  induction events generalizing xs with
  | nil =>
    obtain ⟨rfl, rfl⟩ := List.append_eq_nil_iff.1 hbytes.symm
    exact ⟨[], rfl, h, rfl⟩
  | cons event events ih =>
    rcases event with ⟨head, tail⟩ | - | error
    · simp only [readExact]
      split
      case isTrue hshort =>
        -- the piece is used up; the rest of the buffer comes from the rest of the stream
        obtain ⟨zs, rfl, hzs⟩ : ∃ zs, xs = head :: tail ++ zs ∧ bytes events = zs ++ ys := by
          rcases List.append_eq_append_iff.1 hbytes with ⟨zs, hxs, hzs⟩ | ⟨zs, hpiece, -⟩
          · exact ⟨zs, hxs, hzs⟩
          · have := congrArg List.length hpiece
            simp only [List.length_append, List.length_cons] at this
            omega
        obtain ⟨rest, hrest, hrel, hys⟩ := ih h.of_cons hzs
        refine ⟨rest, ?_, hrel, hys⟩
        have hlen : (head :: tail ++ zs).length - (tail.length + 1) = zs.length := by
          simp only [List.length_append, List.length_cons]
          omega
        rw [hlen, hrest]
      case isFalse hshort =>
        obtain ⟨zs, hpiece, hys⟩ : ∃ zs, head :: tail = xs ++ zs ∧ ys = zs ++ bytes events := by
          rcases List.append_eq_append_iff.1 hbytes with ⟨zs, hxs, hzs⟩ | ⟨zs, hpiece, hys⟩
          · have hnil : zs = [] := by
              have := congrArg List.length hxs
              simp only [List.length_append, List.length_cons] at this
              exact List.length_eq_zero_iff.1 (by omega)
            subst hnil
            exact ⟨[], by rw [hxs, List.append_nil, List.append_nil], hzs.symm⟩
          · exact ⟨zs, hpiece, hys⟩
        refine ⟨unread zs events, ?_, h.of_cons.unread zs, by rw [bytes_unread, hys]⟩
        rw [hpiece, List.take_left, List.drop_left]
    · by_cases hxs : xs.length = 0
      · obtain rfl := List.length_eq_zero_iff.1 hxs
        exact ⟨_, rfl, h, hbytes⟩
      · simp only [readExact, if_neg hxs]
        exact ih h.of_cons hbytes
    · exact absurd List.mem_cons_self (h error)

/-- **Too little data is the end of the file**, after all of it has been read. -/
theorem readExact_of_lt {events : List (ReadEvent α ε)} (h : Reliable events) {n : ℕ}
    (hlt : (bytes events).length < n) :
    readExact n events = ⟨bytes events, .error .unexpectedEof, []⟩ := by
  induction events generalizing n with
  | nil => exact if_neg (by omega)
  | cons event events ih =>
    rcases event with ⟨head, tail⟩ | - | error
    · simp only [bytes, List.length_append, List.length_cons] at hlt
      simp only [readExact, if_pos (show tail.length + 1 < n by omega), bytes,
        ih h.of_cons (show (bytes events).length < n - (tail.length + 1) by omega)]
    · simp only [readExact, if_neg (show n ≠ 0 by omega), bytes, ih h.of_cons hlt]
    · exact absurd List.mem_cons_self (h error)

theorem readFirst_of_cons {events : List (ReadEvent α ε)} (h : Reliable events) {x : α}
    {xs : List α} (hbytes : bytes events = x :: xs) :
    ∃ rest, readFirst events = (.ok (some x), rest) ∧ Reliable rest ∧ bytes rest = xs := by
  induction events with
  | nil => cases hbytes
  | cons event events ih =>
    rcases event with ⟨head, tail⟩ | - | error
    · obtain ⟨rfl, rfl⟩ := List.cons.inj hbytes
      exact ⟨_, rfl, h.of_cons.unread tail, bytes_unread tail events⟩
    · exact ih h.of_cons hbytes
    · exact absurd List.mem_cons_self (h error)

theorem readFirst_of_nil {events : List (ReadEvent α ε)} (h : Reliable events)
    (hbytes : bytes events = []) : readFirst events = (.ok none, []) := by
  induction events with
  | nil => rfl
  | cons event events ih =>
    rcases event with ⟨head, tail⟩ | - | error
    · cases hbytes
    · exact ih h.of_cons hbytes
    · exact absurd List.mem_cons_self (h error)

end ByteReader
