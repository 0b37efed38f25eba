import TransProxy.Library.Layout

/-!
# Windows onto bytes

A window is a byte string with the position where reading has to stop. A length that was
read from the bytes narrows it to what there is, and every access carries the proof that it
stays in front of the stop. A cut of a window shows less of the same bytes.
-/
namespace TransProxy.Library

structure Window where
  data : Bytes
  stop : ℕ
  inBounds : stop ≤ data.length

namespace Window

def whole (data : Bytes) : Window := ⟨data, data.length, Nat.le_refl _⟩

def byte (w : Window) (pos : ℕ) (h : pos < w.stop) : UInt8 :=
  w.data.get ⟨pos, Nat.lt_of_lt_of_le h w.inBounds⟩

/-- `u16::from_be_bytes` of the two bytes at `pos`, as a length. -/
def u16 (w : Window) (pos : ℕ) (h : pos + 2 ≤ w.stop) : ℕ :=
  (u16FromBeBytes (w.byte pos (by omega)) (w.byte (pos + 1) (by omega))).toNat

def bytes (w : Window) (lo hi : ℕ) : Bytes := (w.data.take hi).drop lo

theorem clamp_inBounds (w : Window) {pos : ℕ} (h : pos ≤ w.stop) (len : ℕ) :
    pos + min len (w.stop - pos) ≤ w.data.length := by
  have := w.inBounds
  omega

/-- At most `len` bytes more. -/
def clamp (w : Window) (pos len : ℕ) (h : pos ≤ w.stop) : Window :=
  ⟨w.data, pos + min len (w.stop - pos), w.clamp_inBounds h len⟩

/-- The one window shows less of what the other shows. -/
structure Cut (v w : Window) : Prop where
  stop_le : v.stop ≤ w.stop
  take_eq : v.data.take v.stop = w.data.take v.stop

namespace Cut
variable {v w : Window} {pos lo hi : ℕ}

theorem byte (h : Cut v w) (hv : pos < v.stop) :
    v.byte pos hv = w.byte pos (Nat.lt_of_lt_of_le hv h.stop_le) := by
  have hbyte := congrArg (fun data => data[pos]?) h.take_eq
  simp only [List.getElem?_take_of_lt hv] at hbyte
  rw [List.getElem?_eq_getElem (Nat.lt_of_lt_of_le hv v.inBounds), List.getElem?_eq_getElem
    (Nat.lt_of_lt_of_le (Nat.lt_of_lt_of_le hv h.stop_le) w.inBounds)] at hbyte
  exact Option.some.inj hbyte

theorem u16 (h : Cut v w) (hv : pos + 2 ≤ v.stop) :
    v.u16 pos hv = w.u16 pos (Nat.le_trans hv h.stop_le) := by
  rw [Window.u16, h.byte, h.byte]
  rfl

theorem bytes_eq (h : Cut v w) (hhi : hi ≤ v.stop) : v.bytes lo hi = w.bytes lo hi := by
  have htake := congrArg (List.take hi) h.take_eq
  rw [List.take_take, List.take_take, Nat.min_eq_left hhi] at htake
  rw [Window.bytes, Window.bytes, htake]

/-- The bytes of a cut that ends earlier begin the bytes. -/
theorem bytes_prefix (h : Cut v w) {hi' : ℕ} (hle : hi ≤ hi') (hhi : hi ≤ v.stop) :
    v.bytes lo hi <+: w.bytes lo hi' := by
  rw [h.bytes_eq hhi, bytes, bytes, List.drop_take, List.drop_take]
  exact List.take_prefix_take_left (Nat.sub_le_sub_right hle lo)

theorem clamp (h : Cut v w) (hv : pos ≤ v.stop) (len : ℕ) :
    Cut (v.clamp pos len hv) (w.clamp pos len (Nat.le_trans hv h.stop_le)) := by
  have hstop : pos + min len (v.stop - pos) ≤ v.stop := by omega
  constructor
  · have hle := h.stop_le
    simp only [Window.clamp]
    omega
  · simp only [Window.clamp]
    have htake := congrArg (List.take (pos + min len (v.stop - pos))) h.take_eq
    rwa [List.take_take, List.take_take, Nat.min_eq_left hstop] at htake

/-- A cut that takes nothing away. -/
theorem symm (h : Cut v w) (hstop : v.stop = w.stop) : Cut w v :=
  ⟨Nat.le_of_eq hstop.symm, hstop ▸ h.take_eq.symm⟩

/-- The beginning of a byte string is a cut of it. -/
theorem of_prefix {short long : Bytes} (h : short <+: long) : Cut (whole short) (whole long) := by
  obtain ⟨rest, rfl⟩ := h
  exact ⟨by simp [whole], by simp [whole]⟩

end Cut
/-- The bytes stand at the position, in front of the stop. -/
structure Holds (w : Window) (pos : ℕ) (bytes : Bytes) : Prop where
  held : HoldsAt w.data pos bytes
  le_stop : pos + bytes.length ≤ w.stop

namespace Holds
variable {w : Window} {pos : ℕ} {bytes a b : Bytes}

theorem whole (bytes : Bytes) : (Window.whole bytes).Holds 0 bytes :=
  ⟨⟨Nat.zero_le _, List.prefix_rfl⟩, by simp [Window.whole]⟩

theorem left (h : w.Holds pos (a ++ b)) : w.Holds pos a := by
  have hle := h.le_stop
  rw [List.length_append] at hle
  exact ⟨h.held.mono, by omega⟩

theorem right (h : w.Holds pos (a ++ b)) : w.Holds (pos + a.length) b := by
  have hle := h.le_stop
  rw [List.length_append] at hle
  exact ⟨h.held.tail, by omega⟩

theorem pos_le (h : w.Holds pos bytes) : pos ≤ w.stop := Nat.le_of_add_right_le h.le_stop

theorem byte {x : UInt8} (h : w.Holds pos (x :: b)) (hpos : pos < w.stop) :
    w.byte pos hpos = x :=
  h.held.getElem (Nat.lt_of_lt_of_le hpos w.inBounds)

theorem u16 {n : UInt16} (h : w.Holds pos (u16ToBeBytes n ++ b)) (hpos : pos + 2 ≤ w.stop) :
    w.u16 pos hpos = n.toNat := by
  have hlo : w.Holds (pos + 1) (UInt8.ofNat n.toNat :: b) :=
    h.right (a := [UInt8.ofNat (n.toNat / 256)])
  rw [Window.u16, h.byte, hlo.byte]
  exact congrArg UInt16.toNat (u16FromBeBytes_u16ToBeBytes n)

theorem bytes_eq (h : w.Holds pos bytes) : w.bytes pos (pos + bytes.length) = bytes := by
  rw [Window.bytes, List.drop_take, Nat.add_sub_cancel_left]
  exact h.held.take_drop

/-- A window that was narrowed to some bytes holds them, up to its stop. -/
theorem clamp (h : w.Holds pos bytes) : (w.clamp pos bytes.length h.pos_le).Holds pos bytes := by
  have hle := h.le_stop
  refine ⟨h.held, ?_⟩
  simp only [Window.clamp]
  omega

theorem stop_clamp (h : w.Holds pos bytes) :
    (w.clamp pos bytes.length h.pos_le).stop = pos + bytes.length := by
  have hle := h.le_stop
  simp only [Window.clamp]
  omega

end Holds
end Window
end TransProxy.Library
