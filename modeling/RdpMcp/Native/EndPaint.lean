import RdpMcp.Foundations.Raster
import RdpMcp.Session.State
import RdpMcp.Worker.Protocol

/-!
# The paint callback

`cb_end_paint` runs in the worker each time the protocol library has finished a paint. It clips the
library's invalid rectangle to the desktop, converts the pixels under it from BGRX to RGBA and sends
them as one bitmap update. It is C code, and the model keeps its `int` arithmetic: every signed
operation that the code performs goes through `int32`, and **`none` is undefined behavior**, an
overflow or a read outside the primary buffer. An allocation failure is not modeled.

The update then leaves the process. The native layer writes the rectangle as four 16-bit fields and
lends header and pixels to the worker's output callback, which writes them as one message
(`outputSendBitmap`).
-/

open Raster LittleEndian

namespace RdpMcp

/-- A value of C type `int`, if it is one. -/
def int32 (n : ℤ) : Option ℤ :=
  if -2147483648 ≤ n ∧ n < 2147483648 then some n else none

theorem int32_of_range {n : ℤ} (hlo : -2147483648 ≤ n) (hhi : n < 2147483648) : int32 n = some n :=
  if_pos ⟨hlo, hhi⟩

theorem eq_of_int32_eq_some {n m : ℤ} (h : int32 n = some m) : n = m := by
  rw [int32] at h
  split at h
  · exact Option.some.inj h
  · cases h

/-- A rectangle of C integers. -/
structure InvalidRect where
  x : Int32
  y : Int32
  w : Int32
  h : Int32
  deriving DecidableEq, Repr

/-- What `cb_end_paint` reads of the library's drawing state. `stride` is the value of the local
variable of type `int`. -/
structure Gdi where
  width : Int32
  height : Int32
  stride : Int32
  primaryBuffer : List UInt8
  invalidNull : Bool
  invalid : InvalidRect
  deriving DecidableEq, Repr

/-- The arguments of `output_send_bitmap`. -/
structure BitmapUpdate where
  x : ℤ
  y : ℤ
  w : ℤ
  h : ℤ
  rgba : List UInt8
  deriving DecidableEq, Repr

/-! ### Clipping -/

/-- Clip a range of coordinates from below, at zero: `if (x < 0) { w += x; x = 0; }`. -/
def clipLow (x w : ℤ) : Option (ℤ × ℤ) :=
  if x < 0 then (int32 (w + x)).map fun w ↦ (0, w) else some (x, w)

/-- Clip its extent from above: `if (x + w > dw) w = dw - x;`. -/
def clipHigh (x w dw : ℤ) : Option ℤ := do
  if (← int32 (x + w)) > dw then int32 (dw - x) else some w

/-! ### Conversion -/

/-- A byte of a C buffer. -/
def readByte (buffer : List UInt8) (address : ℤ) : Option UInt8 :=
  if 0 ≤ address then buffer[address.toNat]? else none

/-- One pixel, from BGRX to RGBA. -/
def convertPixel (buffer : List UInt8) (address : ℤ) : Option (List UInt8) := do
  return [← readByte buffer (address + 2), ← readByte buffer (address + 1),
    ← readByte buffer address, 255]

/-- One row of the rectangle. -/
def convertRow (gdi : Gdi) (x y : ℤ) (w row : ℕ) : Option (List UInt8) := do
  let line ← int32 (y + row)
  let offset ← int32 (line * gdi.stride.toInt)
  let column ← int32 (x * 4)
  let pixels ← (List.range w).mapM fun col : ℕ ↦
    convertPixel gdi.primaryBuffer (offset + column + col * 4)
  return pixels.flatten

/-- `cb_end_paint`: the bitmap update it sends, or `some none` when it sends nothing. -/
def cbEndPaint (gdi : Gdi) : Option (Option BitmapUpdate) :=
  if gdi.invalidNull then some none
  else
    let dw := gdi.width.toInt
    let dh := gdi.height.toInt
    if dw ≤ 0 ∨ dh ≤ 0 then some none
    else do
      let (x, w) ← clipLow gdi.invalid.x.toInt gdi.invalid.w.toInt
      let (y, h) ← clipLow gdi.invalid.y.toInt gdi.invalid.h.toInt
      let w ← clipHigh x w dw
      let h ← clipHigh y h dh
      if w ≤ 0 ∨ h ≤ 0 then return none
      else
        let rows ← (List.range h.toNat).mapM (convertRow gdi x y w.toNat)
        return some { x, y, w, h, rgba := rows.flatten }

/-! ### Leaving the process -/

/-- The two bytes of a coordinate cast to `uint16_t`. -/
def uint16Bytes (n : ℤ) : List UInt8 :=
  toBytes 2 (n % 65536).toNat

/-- `native_output`: the borrowed parts, at the lengths they came with. -/
def nativeOutput (kind : UInt32) (partA : List UInt8) (lengthA : UInt32) (partB : List UInt8)
    (lengthB : UInt32) : Except String (List UInt8) :=
  writeMessage kind (partA.take lengthA.toNat) (partB.take lengthB.toNat)

/-- `output_send_bitmap`: the bytes an update puts on the worker's output. -/
def outputSendBitmap (update : BitmapUpdate) : Except String (List UInt8) :=
  let sub := uint16Bytes update.x ++ uint16Bytes update.y ++ uint16Bytes update.w ++
    uint16Bytes update.h
  nativeOutput msgBitmapUpdate sub 8 update.rgba (UInt32.ofNat update.rgba.length)

end RdpMcp
