import Mathlib.Data.Set.Prod
import RdpMcp.Foundations.Replica
import RdpMcp.Native.Mirror
import RdpMcp.Worker.EventOrder

/-!
# The desktop and what is sent of it

The connection module sends the size of the desktop when it has connected and after each resize, and
the dirty part of the drawing buffer at the end of each paint. FreeRDP draws in between, and says in
its invalid rectangle where (`Regular`). **A resize that changes nothing is announced too**, and one
that fails is announced with the size that was asked for: then the drawing buffer keeps its size,
and the other side does not.

Each callback sends one message at most, through `native_output`; the other modules' messages are
among them (`DesktopAction.send`). That an address in the drawing buffer overflows is undefined
behavior, and such a paint cannot be taken.
-/

open Raster LittleEndian

namespace RdpMcp

/-! ### Messages -/

/-- What `snprintf` makes of a size. -/
def sizeText (width height : ℤ) : List UInt8 :=
  utf8 "\x7b\"width\":" ++ integerText width ++ utf8 ",\"height\":" ++ integerText height ++
    utf8 "\x7d"

/-- `output_send_connected`. -/
def outputSendConnected (width height : ℤ) : Message :=
  ⟨msgConnected, sizeText width height, []⟩

/-- `output_send_resized`. -/
def outputSendResized (width height : ℤ) : Message :=
  ⟨msgResized, sizeText width height, []⟩

/-- The message of `output_send_bitmap`. -/
def BitmapUpdate.message (update : BitmapUpdate) : Message :=
  ⟨msgBitmapUpdate, uint16Bytes update.x ++ uint16Bytes update.y ++ uint16Bytes update.w ++
    uint16Bytes update.h, update.rgba⟩

/-! ### The module -/

/-- The drawing buffer, and what has been sent. -/
structure Desktop where
  gdi : Gdi := ⟨0, 0, 0, [], true, ⟨0, 0, 0, 0⟩⟩
  /-- FreeRDP has begun a paint and not ended it. -/
  painting : Bool := false
  /-- The width and the height that were announced last. -/
  size : ℕ × ℕ := (0, 0)
  /-- The paints since the size was last announced, as they were sent. -/
  paints : List Gdi := []
  messages : List Message := []

/-- What FreeRDP calls and does, and what else is sent. -/
inductive DesktopAction where
  /-- `cb_post_connect`, with what `gdi_init` makes. -/
  | postConnect (width height : UInt32) (gdi : Gdi)
  | beginPaint
  | draw (gdi : Gdi)
  | endPaint
  /-- `cb_desktop_resize`, with what `gdi_resize` makes unless it fails. -/
  | desktopResize (width height : UInt32) (resized : Option Gdi)
  | send (message : Message)

namespace Desktop

/-- The size is announced. -/
def announce (s : Desktop) (width height : UInt32) (message : ℤ → ℤ → Message) : Desktop :=
  { s with
    messages := s.messages ++ [message width.toInt32.toInt height.toInt32.toInt]
    size := (width.toNat, height.toNat)
    paints := [] }

/-- `cb_post_connect`. -/
def postConnect (s : Desktop) (width height : UInt32) (gdi : Gdi) : Desktop :=
  { s.announce width height outputSendConnected with gdi }

/-- `cb_begin_paint`. -/
def beginPaint (s : Desktop) : Desktop :=
  { s with gdi := { s.gdi with invalidNull := true }, painting := true }

/-- `cb_end_paint`. -/
def endPaint (s : Desktop) : Option Desktop :=
  (cbEndPaint s.gdi).map fun
    | none => { s with painting := false }
    | some update =>
      { s with
        painting := false
        paints := s.gdi :: s.paints
        messages := s.messages ++ [update.message] }

/-- `cb_desktop_resize`. -/
def desktopResize (s : Desktop) (width height : UInt32) (resized : Option Gdi) : Desktop :=
  let gdi :=
    if s.gdi.width ≠ width.toInt32 ∨ s.gdi.height ≠ height.toInt32 then resized.getD s.gdi
    else s.gdi
  { s.announce width height outputSendResized with gdi }

end Desktop

def desktopSystem : StepSystem Desktop DesktopAction where
  step s
    | .postConnect width height gdi => some (s.postConnect width height gdi)
    | .beginPaint => some s.beginPaint
    | .draw gdi => some { s with gdi }
    | .endPaint => s.endPaint
    | .desktopResize width height resized => some (s.desktopResize width height resized)
    | .send message => some { s with messages := s.messages ++ [message] }

/-! ### What FreeRDP keeps to -/

/-- The pixels of the drawing buffer, by row and column. -/
def Gdi.desktop (gdi : Gdi) : Set (ℕ × ℕ) :=
  {p | (p.1 : ℤ) < gdi.height.toInt ∧ (p.2 : ℤ) < gdi.width.toInt}

/-- The pixels in the invalid rectangle. -/
def Gdi.dirty (gdi : Gdi) : Set (ℕ × ℕ) :=
  {p | gdi.invalidNull = false ∧ gdi.Visible p.1 p.2}

/-- The bytes of a pixel. -/
def Gdi.source (gdi : Gdi) (p : ℕ × ℕ) : Option (List UInt8) :=
  gdi.pixel p.1 p.2

/-- A supported size. -/
def Supported (width height : UInt32) : Prop :=
  (1 ≤ width.toNat ∧ width.toNat ≤ 8192) ∧ 1 ≤ height.toNat ∧ height.toNat ≤ 8192

/-- **What FreeRDP keeps to**: sizes are supported; paints are not nested; it draws within a paint,
and what it draws to is invalid from then on; and the drawing buffer is as large as it says, with
addresses that fit an `int`. What else is sent fits a message and is neither a size nor a bitmap. -/
def Regular (s : Desktop) : DesktopAction → Prop
  | .postConnect width height _ => Supported width height
  | .beginPaint => s.painting = false
  | .draw gdi => s.painting = true ∧ (gdi.width = s.gdi.width ∧ gdi.height = s.gdi.height) ∧
      s.gdi.dirty ⊆ gdi.dirty ∧
      ∀ p ∈ gdi.desktop, p ∉ gdi.dirty → gdi.source p = s.gdi.source p
  | .endPaint => s.gdi.invalidNull = false → s.gdi.Wellformed ∧
      ∀ r c, s.gdi.Visible r c → (r : ℤ) * s.gdi.stride.toInt < 2147483648
  | .desktopResize width height _ => Supported width height
  | .send message => message.Sendable ∧ message.kind ≠ msgConnected ∧ message.kind ≠ msgResized ∧
      message.kind ≠ msgBitmapUpdate

namespace Desktop

/-- What has been sent since the size was last announced. -/
def sent (s : Desktop) : Set (ℕ × ℕ) :=
  {p | ∃ gdi ∈ s.paints, p ∈ gdi.dirty}

/-- What has been drawn and not been sent. -/
def dirty (s : Desktop) : Set (ℕ × ℕ) :=
  {p | s.painting = true ∧ p ∈ s.gdi.dirty}

end Desktop

end RdpMcp
