import RdpMcp.Session.Finished

/-!
# The status of a session

The part of a session's state that callers steer by: whether it is connected, finished, stopped. It
only ever moves forward (`Follows`), whatever the worker reports and **whatever the word size**: a
panic ends everything, and a step that does not panic does not go back. These are the facts the
interleavings of callers need, and all they need.
-/

namespace RdpMcp

namespace SessionState

/-- A later state of a session: nothing ended is undone, and a connection is lost by ending only. -/
structure Follows (s t : SessionState) : Prop where
  finished : s.finished = true → t.finished = true
  disconnected : s.disconnected = true → t.disconnected = true
  connected : s.connected = true → t.connected = true ∨ t.finished = true

theorem Follows.refl (s : SessionState) : s.Follows s :=
  ⟨id, id, .inl⟩

theorem finished_of_disconnected {s : SessionState} (h : s.disconnected = true) :
    s.finished = true := by
  rw [finished, h, Bool.or_true]

theorem finished_stop (s : SessionState) (error : Option String) : (s.stop error).finished = true :=
  finished_of_disconnected rfl

theorem follows_stop (s : SessionState) (error : Option String) : s.Follows (s.stop error) :=
  ⟨fun _ ↦ finished_stop s error, fun _ ↦ rfl, fun _ ↦ .inr (finished_stop s error)⟩

/-- A state that differs in its pixels and sizes, or by a new error. -/
theorem follows_of_eq {s t : SessionState} (hconnected : t.connected = s.connected)
    (hdisconnected : t.disconnected = s.disconnected)
    (herror : t.error = s.error ∨ t.error.isSome = true) : s.Follows t := by
  refine ⟨fun h ↦ ?_, fun h ↦ hdisconnected ▸ h, fun h ↦ .inl (hconnected ▸ h)⟩
  rcases herror with herror | herror
  · rwa [finished, herror, hdisconnected, ← finished]
  · rw [finished, herror, Bool.true_or]

/-- A painted rectangle leaves the status alone; a rejected one sets the error. -/
theorem status_of_applyBitmap {bits : ℕ} {s t : SessionState} {header pixels : List UInt8}
    (h : applyBitmap bits s header pixels = some t) :
    t.connected = s.connected ∧ t.disconnected = s.disconnected ∧
      (t.error = s.error ∨ t.error.isSome = true) := by
  rw [applyBitmap] at h
  split at h
  · cases h
    exact ⟨rfl, rfl, .inl rfl⟩
  · split_ifs at h
    · cases h
      exact ⟨rfl, rfl, .inl rfl⟩
    · cases h
      exact ⟨rfl, rfl, .inr rfl⟩
    · cases h
      exact ⟨rfl, rfl, .inl rfl⟩
    · obtain ⟨framebuffer, -, rfl⟩ := Option.map_eq_some_iff.1 h
      exact ⟨rfl, rfl, .inl rfl⟩

theorem status_resized (bits : ℕ) (s : SessionState) (width height : ℕ) :
    (s.resized bits width height).connected = s.connected ∧
      (s.resized bits width height).disconnected = s.disconnected ∧
      (s.resized bits width height).error = s.error := by
  rw [resized]
  split
  · exact ⟨rfl, rfl, rfl⟩
  · exact ⟨rfl, rfl, rfl⟩

end SessionState

open SessionState

/-- **Every event moves the status forward**, and only READY connects. -/
theorem follows_of_handleNativeOutput {bits : ℕ} {fromSlice : List UInt8 → Option JsonValue}
    {s t : SessionState} {kind : UInt32} {partA partB : List UInt8}
    (h : handleNativeOutput bits fromSlice s kind partA partB = some t) :
    s.Follows t ∧ (t.connected = true → s.connected = true ∨ kind = msgReady) := by
  unfold handleNativeOutput at h
  split_ifs at h with hdisconnected hdead hready hsize hbitmap herror
  · cases h
    exact ⟨follows_stop s _, nofun⟩
  · cases h
    exact ⟨.refl s, .inl⟩
  · cases h
    exact ⟨⟨fun h ↦ h, id, fun _ ↦ .inl rfl⟩, fun _ ↦ .inr hready⟩
  · split at h
    · cases h
      obtain ⟨hc, hd, he⟩ := status_resized bits s (dimension _ "width") (dimension _ "height")
      exact ⟨follows_of_eq hc hd (.inl he), fun h ↦ .inl (hc ▸ h)⟩
    · cases h
      exact ⟨.refl s, .inl⟩
  · obtain ⟨hc, hd, he⟩ := status_of_applyBitmap h
    exact ⟨follows_of_eq hc hd he, fun h ↦ .inl (hc ▸ h)⟩
  · cases h
    exact ⟨follows_of_eq rfl rfl (.inr rfl), .inl⟩
  · cases h
    exact ⟨.refl s, .inl⟩

/-- The gate passes exactly the connected and unfinished. -/
theorem SessionState.checkConnected_eq_ok_iff {s : SessionState} :
    s.checkConnected = .ok () ↔ s.connected = true ∧ s.finished = false := by
  rw [checkConnected, finished]
  cases s.error with
  | some e => simp
  | none =>
    cases s.disconnected with
    | true => simp
    | false => cases s.connected <;> simp

end RdpMcp
