import RdpMcp.Foundations.ByteReader

/-!
# Reading up to a delimiter

`readUntil` gathers data up to and including the first delimiter, but no more than a limit, or up to
the end of the stream. As the two loops of the byte reader it is given by recursion on what arrives,
and what it finds depends on the data alone: it is `upTo` of the data.

Reading again and again cuts the data into `pieces`. `readPieces` is what a stream yields that way:
behind its last piece, which may be cut short, comes the end; a failure instead takes the place of a
piece that it cuts short.
-/

namespace ByteReader

variable {α ε : Type*} (isEnd : α → Bool)

/-! ### Of a list -/

/-- The elements up to and including the first delimiter, at most `n`. -/
def upTo : ℕ → List α → List α
  | 0, _ => []
  | _ + 1, [] => []
  | n + 1, x :: xs => if isEnd x then [x] else x :: upTo n xs

variable {isEnd}

/-- No element is a delimiter. -/
def Plain (isEnd : α → Bool) (xs : List α) : Prop :=
  ∀ x ∈ xs, isEnd x = false

theorem upTo_of_plain {xs : List α} (h : Plain isEnd xs) (n : ℕ) : upTo isEnd n xs = xs.take n := by
  induction xs generalizing n with
  | nil => cases n <;> rfl
  | cons x xs ih =>
    obtain ⟨hx, hxs⟩ := List.forall_mem_cons.1 h
    cases n with
    | zero => rfl
    | succ n => rw [upTo, hx, if_neg Bool.false_ne_true, ih hxs, List.take_succ_cons]

/-- What lies in front of the first delimiter, and the delimiter. -/
theorem upTo_append_cons {xs : List α} (h : Plain isEnd xs) {e : α} (he : isEnd e = true) {n : ℕ}
    (hn : xs.length < n) (ys : List α) : upTo isEnd n (xs ++ e :: ys) = xs ++ [e] := by
  induction xs generalizing n with
  | nil =>
    obtain ⟨n, rfl⟩ := Nat.exists_eq_succ_of_ne_zero (Nat.ne_of_gt hn)
    exact if_pos he
  | cons x xs ih =>
    obtain ⟨hx, hxs⟩ := List.forall_mem_cons.1 h
    obtain ⟨n, rfl⟩ := Nat.exists_eq_succ_of_ne_zero (Nat.ne_of_gt (Nat.zero_lt_of_lt hn))
    rw [List.cons_append, upTo, hx, if_neg Bool.false_ne_true, ih hxs (Nat.lt_of_succ_lt_succ hn),
      List.cons_append]

/-- A piece without a delimiter that fits is taken whole, and the search goes on behind it. -/
theorem upTo_append {xs : List α} (h : Plain isEnd xs) {n : ℕ} (hn : xs.length ≤ n) (ys : List α) :
    upTo isEnd n (xs ++ ys) = xs ++ upTo isEnd (n - xs.length) ys := by
  induction xs generalizing n with
  | nil => rfl
  | cons x xs ih =>
    obtain ⟨hx, hxs⟩ := List.forall_mem_cons.1 h
    obtain ⟨n, rfl⟩ := Nat.exists_eq_succ_of_ne_zero (Nat.ne_of_gt (Nat.zero_lt_of_lt hn))
    rw [List.cons_append, upTo, hx, if_neg Bool.false_ne_true, ih hxs (Nat.le_of_succ_le_succ hn),
      List.cons_append, List.length_cons, Nat.succ_sub_succ]

theorem length_upTo_le (isEnd : α → Bool) (n : ℕ) (xs : List α) :
    (upTo isEnd n xs).length ≤ xs.length := by
  induction xs generalizing n with
  | nil => cases n <;> simp [upTo]
  | cons x xs ih =>
    cases n with
    | zero => simp [upTo]
    | succ n =>
      rw [upTo]
      split
      · simp
      · simpa using ih n

/-- A piece is cut at a delimiter or at the limit, or it has none and fits. -/
theorem upTo_cases (isEnd : α → Bool) (n : ℕ) (xs : List α) :
    ((upTo isEnd n xs).any isEnd ∨ (upTo isEnd n xs).length = n) ∧
        (∀ ys, upTo isEnd n (xs ++ ys) = upTo isEnd n xs) ∧
        upTo isEnd n xs ++ xs.drop (upTo isEnd n xs).length = xs ∨
      Plain isEnd xs ∧ xs.length < n ∧ upTo isEnd n xs = xs := by
  induction xs generalizing n with
  | nil =>
    cases n with
    | zero => exact .inl ⟨.inr rfl, fun _ ↦ rfl, rfl⟩
    | succ n => exact .inr ⟨nofun, n.succ_pos, rfl⟩
  | cons x xs ih =>
    cases n with
    | zero => exact .inl ⟨.inr rfl, fun _ ↦ rfl, rfl⟩
    | succ n =>
      simp only [List.cons_append, upTo]
      by_cases hx : isEnd x = true
      · simp only [if_pos hx]
        exact .inl ⟨.inl (by simp [hx]), fun _ ↦ trivial, rfl⟩
      · simp only [if_neg hx]
        rcases ih n with ⟨hstop, hmore, happend⟩ | ⟨hplain, hlt, htake⟩
        · refine .inl ⟨?_, fun ys ↦ by rw [hmore ys], ?_⟩
          · rcases hstop with hany | hlen
            · exact .inl (by rw [List.any_cons, hany, Bool.or_true])
            · exact .inr (by rw [List.length_cons, hlen])
          · rw [List.length_cons, List.drop_succ_cons, List.cons_append, happend]
        · exact .inr ⟨List.forall_mem_cons.2 ⟨Bool.eq_false_iff.2 hx, hplain⟩,
            Nat.succ_lt_succ hlt, by rw [htake]⟩

theorem not_any_of_plain {xs : List α} (h : Plain isEnd xs) : ¬xs.any isEnd = true := by
  rw [List.any_eq_true]
  rintro ⟨x, hx, hend⟩
  exact absurd hend (by rw [h x hx]; exact Bool.false_ne_true)

/-! ### Of a stream -/

variable (isEnd) in
/-- `BufRead::read_until` behind `Read::take`: what is available is searched for the delimiter, and
consumed up to it, until the delimiter is found, the limit is reached or nothing is available. -/
def readUntil (n : ℕ) : List (ReadEvent α ε) → Except ε (List α) × List (ReadEvent α ε)
  | [] => (.ok [], [])
  | .data head tail :: events =>
    if n = 0 then (.ok [], .data head tail :: events)
    else
      let used := upTo isEnd n (head :: tail)
      let left := (head :: tail).drop used.length
      if used.any isEnd ∨ used.length = n then (.ok used, unread left events)
      else
        match readUntil (n - used.length) events with
        | (.ok more, rest) => (.ok (used ++ more), rest)
        | (.error error, rest) => (.error error, rest)
  | .interrupted :: events =>
    if n = 0 then (.ok [], .interrupted :: events) else readUntil n events
  | .failed error :: events =>
    if n = 0 then (.ok [], .failed error :: events) else (.error error, events)

/-- The data in front of the first failure. -/
def available : List (ReadEvent α ε) → List α
  | [] => []
  | .data head tail :: events => head :: tail ++ available events
  | .interrupted :: events => available events
  | .failed _ :: _ => []

/-- The first failure. -/
def firstFailure : List (ReadEvent α ε) → Option ε
  | [] => none
  | .data _ _ :: events => firstFailure events
  | .interrupted :: events => firstFailure events
  | .failed error :: _ => some error

@[simp]
theorem available_unread (xs : List α) (events : List (ReadEvent α ε)) :
    available (unread xs events) = xs ++ available events := by
  cases xs <;> rfl

@[simp]
theorem firstFailure_unread (xs : List α) (events : List (ReadEvent α ε)) :
    firstFailure (unread xs events) = firstFailure events := by
  cases xs <;> rfl

theorem Reliable.firstFailure_eq {events : List (ReadEvent α ε)} (h : Reliable events) :
    firstFailure events = none := by
  induction events with
  | nil => rfl
  | cons event events ih =>
    rcases event with ⟨head, tail⟩ | - | error
    · exact ih h.of_cons
    · exact ih h.of_cons
    · exact absurd List.mem_cons_self (h error)

theorem reliable_of_firstFailure {events : List (ReadEvent α ε)} (h : firstFailure events = none) :
    Reliable events := by
  induction events with
  | nil => exact fun _ ↦ List.not_mem_nil
  | cons event events ih =>
    rcases event with ⟨head, tail⟩ | - | error
    · exact fun error hmem ↦ ih h error (by simpa using hmem)
    · exact fun error hmem ↦ ih h error (by simpa using hmem)
    · cases h

theorem available_eq_bytes {events : List (ReadEvent α ε)} (h : firstFailure events = none) :
    available events = bytes events := by
  induction events with
  | nil => rfl
  | cons event events ih =>
    rcases event with ⟨head, tail⟩ | - | error
    · exact congrArg (head :: tail ++ ·) (ih h)
    · exact ih h
    · cases h

/-- What a call of `readUntil` has found. A failure is met only if it cuts a piece short, and so is
the end. -/
def Reads (isEnd : α → Bool) (n : ℕ) (events : List (ReadEvent α ε)) :
    Except ε (List α) × List (ReadEvent α ε) → Prop
  | (.ok xs, rest) => xs = upTo isEnd n (available events) ∧
      available events = xs ++ available rest ∧ firstFailure rest = firstFailure events ∧
      (xs.any isEnd ∨ xs.length = n ∨ firstFailure events = none)
  | (.error error, _) => firstFailure events = some error ∧ Plain isEnd (available events) ∧
      (available events).length < n

/-- **What is read depends on the data alone**, not on how it arrives. -/
theorem reads_readUntil (isEnd : α → Bool) (n : ℕ) (events : List (ReadEvent α ε)) :
    Reads isEnd n events (readUntil isEnd n events) := by
  induction events generalizing n with
  | nil => cases n <;> exact ⟨rfl, rfl, rfl, .inr (.inr rfl)⟩
  | cons event events ih =>
    by_cases hn : n = 0
    · subst hn
      rcases event with ⟨head, tail⟩ | - | error <;> exact ⟨rfl, rfl, rfl, .inr (.inl rfl)⟩
    rcases event with ⟨head, tail⟩ | - | error
    · simp only [readUntil, if_neg hn]
      rcases upTo_cases isEnd n (head :: tail) with ⟨hstop, hmore, happend⟩ | ⟨hplain, hlt, htake⟩
      · rw [if_pos hstop]
        refine ⟨(hmore _).symm, ?_, firstFailure_unread _ _, hstop.imp_right .inl⟩
        rw [available_unread, ← List.append_assoc, happend]
        rfl
      · -- the piece is used up and the search goes on in the next one
        have hgo : ¬((head :: tail).any isEnd = true ∨ (head :: tail).length = n) := by
          rintro (hany | hlen)
          · exact not_any_of_plain hplain hany
          · omega
        have hnext := ih (n - (head :: tail).length)
        rw [htake, if_neg hgo]
        rcases hread : readUntil isEnd (n - (head :: tail).length) events with ⟨error | more, rest⟩
        · rw [hread] at hnext
          obtain ⟨hfailure, hrest, hshort⟩ := hnext
          refine ⟨hfailure, fun x hx ↦ ?_, ?_⟩
          · exact (List.mem_append.1 hx).elim (hplain x) (hrest x)
          · rw [available, List.length_append]
            omega
        · rw [hread] at hnext
          obtain ⟨hmore, havailable, hfailure, hstop⟩ := hnext
          refine ⟨?_, ?_, hfailure, ?_⟩
          · rw [available, upTo_append hplain (Nat.le_of_lt hlt), hmore]
          · rw [available, havailable, List.append_assoc]
          · rcases hstop with hany | hlen | hnone
            · exact .inl (by rw [List.any_append, hany, Bool.or_true])
            · exact .inr (.inl (by rw [List.length_append]; omega))
            · exact .inr (.inr hnone)
    · simp only [readUntil, if_neg hn]
      exact ih n
    · simp only [readUntil, if_neg hn]
      exact ⟨rfl, fun _ hx ↦ absurd hx List.not_mem_nil, Nat.pos_of_ne_zero hn⟩

theorem readUntil_eq (isEnd : α → Bool) {events : List (ReadEvent α ε)} (h : Reliable events)
    (n : ℕ) :
    ∃ rest, readUntil isEnd n events = (.ok (upTo isEnd n (bytes events)), rest) ∧
      Reliable rest ∧ upTo isEnd n (bytes events) ++ bytes rest = bytes events := by
  have hreads := reads_readUntil isEnd n events
  rcases hread : readUntil isEnd n events with ⟨error | xs, rest⟩ <;> rw [hread] at hreads
  · cases h.firstFailure_eq.symm.trans hreads.1
  · obtain ⟨hxs, havailable, hfailure, -⟩ := hreads
    rw [h.firstFailure_eq] at hfailure
    rw [available_eq_bytes h.firstFailure_eq] at hxs havailable
    rw [available_eq_bytes hfailure] at havailable
    exact ⟨rest, by rw [hxs], reliable_of_firstFailure hfailure, by rw [← hxs, ← havailable]⟩

/-- Reading something uses up some of the stream. -/
theorem length_bytes_readUntil {events rest : List (ReadEvent α ε)} {n : ℕ} {xs : List α}
    (h : readUntil isEnd n events = (.ok xs, rest)) :
    xs.length + (bytes rest).length ≤ (bytes events).length := by
  induction events generalizing n xs with
  | nil =>
    cases h
    exact Nat.le_of_eq (Nat.zero_add _)
  | cons event events ih =>
    by_cases hn : n = 0
    · subst hn
      rcases event with ⟨head, tail⟩ | - | error <;> (cases h; simp)
    rcases event with ⟨head, tail⟩ | - | error
    · simp only [readUntil, if_neg hn] at h
      have hle := length_upTo_le isEnd n (head :: tail)
      split at h
      · cases h
        simp only [bytes_unread, bytes, List.length_append, List.length_drop]
        omega
      · split at h
        · rename_i more rest' hmore
          cases h
          have := ih hmore
          simp only [bytes, List.length_append]
          omega
        · cases h
    · simp only [readUntil, if_neg hn] at h
      exact ih h
    · simp only [readUntil, if_neg hn] at h
      cases h

/-! ### Piece by piece -/

variable (isEnd) in
/-- Data cut into pieces, each up to and including a delimiter, at most `n`. -/
def pieces (n : ℕ) (xs : List α) : List (List α) :=
  if _ : upTo isEnd n xs = [] then []
  else upTo isEnd n xs :: pieces n (xs.drop (upTo isEnd n xs).length)
termination_by xs.length
decreasing_by
  have hpos : 0 < (upTo isEnd n xs).length := List.length_pos_iff.2 ‹_›
  have hle := length_upTo_le isEnd n xs
  rw [List.length_drop]
  omega

theorem pieces_of_ne {n : ℕ} {xs ys : List α} (h : upTo isEnd n (xs ++ ys) = xs) (hne : xs ≠ []) :
    pieces isEnd n (xs ++ ys) = xs :: pieces isEnd n ys := by
  rw [pieces, dif_neg (fun hnil ↦ hne (h.symm.trans hnil)), h, List.drop_left]

/-- **Nothing is left out**, and nothing is put in another place. -/
theorem flatten_pieces (isEnd : α → Bool) {n : ℕ} (hn : 0 < n) (xs : List α) :
    (pieces isEnd n xs).flatten = xs := by
  fun_induction pieces isEnd n xs with
  | case1 xs hnil =>
    rcases xs with - | ⟨x, xs⟩
    · rfl
    · obtain ⟨n, rfl⟩ := Nat.exists_eq_succ_of_ne_zero (Nat.ne_of_gt hn)
      rw [upTo] at hnil
      split at hnil <;> cases hnil
  | case2 xs hne ih =>
    rw [List.flatten_cons, ih]
    rcases upTo_cases isEnd n xs with ⟨-, -, happend⟩ | ⟨-, -, hall⟩
    · exact happend
    · rw [hall, List.drop_length, List.append_nil]

theorem ne_nil_of_mem_pieces {n : ℕ} {xs p : List α} (h : p ∈ pieces isEnd n xs) : p ≠ [] := by
  fun_induction pieces isEnd n xs with
  | case1 xs hnil => exact absurd h List.not_mem_nil
  | case2 xs hne ih =>
    rcases List.mem_cons.1 h with rfl | h
    · exact hne
    · exact ih h

variable (isEnd) in
/-- What is read from a stream, piece by piece. At its end nothing is read; a piece that a failure
cuts short is not read. -/
def readPieces (n : ℕ) (events : List (ReadEvent α ε)) : List (List α) :=
  match firstFailure events with
  | none => pieces isEnd n (available events) ++ [[]]
  | some _ => (pieces isEnd n (available events)).takeWhile fun p ↦ p.any isEnd || p.length == n

variable {n : ℕ} {events rest : List (ReadEvent α ε)}

/-- A piece that is read is the first one. -/
theorem readPieces_of_ok {xs : List α} (h : readUntil isEnd n events = (.ok xs, rest))
    (hne : xs ≠ []) : readPieces isEnd n events = xs :: readPieces isEnd n rest := by
  have hreads := reads_readUntil isEnd n events
  rw [h] at hreads
  obtain ⟨hxs, havailable, hfailure, hstop⟩ := hreads
  rw [havailable] at hxs
  rw [readPieces, readPieces, hfailure, havailable, pieces_of_ne hxs.symm hne]
  cases herror : firstFailure events with
  | none => rfl
  | some error =>
    have hwhole : (xs.any isEnd || xs.length == n) = true := by
      rcases hstop with hany | hlen | hnone
      · rw [hany, Bool.true_or]
      · rw [beq_iff_eq.2 hlen, Bool.or_true]
      · cases herror.symm.trans hnone
    exact List.takeWhile_cons_of_pos hwhole

/-- Nothing is read at the end of a stream, and there alone. -/
theorem readPieces_of_end (hn : 0 < n) (h : readUntil isEnd n events = (.ok [], rest)) :
    readPieces isEnd n events = [[]] := by
  have hreads := reads_readUntil isEnd n events
  rw [h] at hreads
  obtain ⟨hxs, -, -, hstop⟩ := hreads
  have hnone : firstFailure events = none := by
    rcases hstop with hany | hlen | hnone
    · cases hany
    · exact absurd hlen (Nat.ne_of_lt hn)
    · exact hnone
  have hpieces : pieces isEnd n (available events) = [] := by
    rw [pieces, dif_pos hxs.symm]
  rw [readPieces, hnone, hpieces]
  rfl

/-- A failure shows when all pieces in front of it have been read. -/
theorem readPieces_of_error {error : ε} (h : readUntil isEnd n events = (.error error, rest)) :
    firstFailure events = some error ∧ readPieces isEnd n events = [] := by
  have hreads := reads_readUntil isEnd n events
  rw [h] at hreads
  obtain ⟨hfailure, hplain, hlt⟩ := hreads
  refine ⟨hfailure, ?_⟩
  rw [readPieces, hfailure, pieces]
  dsimp only
  rw [upTo_of_plain hplain, List.take_of_length_le (Nat.le_of_lt hlt)]
  split
  · rfl
  · have hshort : ((available events).any isEnd || (available events).length == n) = false := by
      rw [Bool.eq_false_iff.2 (not_any_of_plain hplain), Bool.false_or]
      exact beq_eq_false_iff_ne.2 (Nat.ne_of_lt hlt)
    exact List.takeWhile_cons_of_neg (by rw [hshort]; exact Bool.false_ne_true)

/-- The end is reached behind all the data. -/
theorem flatten_of_nil_mem (hn : 0 < n) {reads : List (List α)}
    (h : reads <+: readPieces isEnd n events) (hnil : [] ∈ reads) :
    reads.flatten = bytes events := by
  rw [readPieces] at h
  cases hfailure : firstFailure events with
  | none =>
    rw [hfailure] at h
    rcases List.prefix_concat_iff.1 h with rfl | hpieces
    · rw [List.flatten_append, flatten_pieces isEnd hn, available_eq_bytes hfailure]
      exact List.append_nil _
    · exact absurd rfl (ne_nil_of_mem_pieces (hpieces.subset hnil))
  | some error =>
    rw [hfailure] at h
    exact absurd rfl (ne_nil_of_mem_pieces ((List.takeWhile_subset _) (h.subset hnil)))

end ByteReader
