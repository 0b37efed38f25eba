import TransProxy.Library.Bytes

/-!
# Bytes at a position

What a format puts into a byte string, stated at the position where it stands. The fields of a
record are found one behind the other, whatever is in front of them and behind them.
-/
namespace TransProxy.Library

def HoldsAt (packet : Bytes) (pos : ℕ) (bytes : Bytes) : Prop :=
  pos ≤ packet.length ∧ bytes <+: packet.drop pos

variable {packet bytes a b : Bytes} {pos : ℕ}

theorem holdsAt_iff : HoldsAt packet pos bytes ↔
    ∃ before after, packet = before ++ bytes ++ after ∧ before.length = pos := by
  constructor
  · rintro ⟨hpos, after, hafter⟩
    refine ⟨packet.take pos, after, ?_, List.length_take_of_le hpos⟩
    rw [List.append_assoc, hafter, List.take_append_drop]
  · rintro ⟨before, after, rfl, rfl⟩
    refine ⟨by simp, after, ?_⟩
    rw [List.append_assoc, List.drop_left]

theorem HoldsAt.length_le (h : HoldsAt packet pos bytes) :
    pos + bytes.length ≤ packet.length := by
  have hlen := h.2.length_le
  have hpos := h.1
  rw [List.length_drop] at hlen
  omega

theorem holdsAt_append : HoldsAt packet pos (a ++ b) ↔
    HoldsAt packet pos a ∧ HoldsAt packet (pos + a.length) b := by
  simp only [holdsAt_iff]
  constructor
  · rintro ⟨before, after, rfl, rfl⟩
    exact ⟨⟨before, b ++ after, by simp, rfl⟩, ⟨before ++ a, after, by simp, by simp⟩⟩
  · rintro ⟨⟨before, after, rfl, rfl⟩, ⟨before', after', heq, hlen⟩⟩
    have hsplit := List.append_inj (heq.trans (List.append_assoc before' b after')) (by simp [hlen])
    exact ⟨before, after', by rw [hsplit.2]; simp, rfl⟩

@[simp] theorem holdsAt_nil : HoldsAt packet pos [] ↔ pos ≤ packet.length :=
  and_iff_left List.nil_prefix

theorem holdsAt_singleton {x : UInt8} :
    HoldsAt packet pos [x] ↔ ∃ h : pos < packet.length, packet[pos] = x := by
  constructor
  · intro h
    have hlt : pos < packet.length := h.length_le
    obtain ⟨before, after, rfl, rfl⟩ := holdsAt_iff.mp h
    exact ⟨hlt, by simp⟩
  · rintro ⟨hlt, rfl⟩
    refine ⟨Nat.le_of_lt hlt, packet.drop (pos + 1), ?_⟩
    rw [List.singleton_append, List.getElem_cons_drop]

theorem holdsAt_cons {x : UInt8} : HoldsAt packet pos (x :: b) ↔
    (∃ h : pos < packet.length, packet[pos] = x) ∧ HoldsAt packet (pos + 1) b := by
  rw [← holdsAt_singleton]
  exact holdsAt_append (a := [x])

theorem HoldsAt.getElem {x : UInt8} (h : HoldsAt packet pos (x :: b)) (hlt : pos < packet.length) :
    packet[pos] = x :=
  (holdsAt_cons.mp h).1.2

theorem HoldsAt.getElem_add (h : HoldsAt packet pos bytes) {i : ℕ} (hi : i < bytes.length)
    (hin : pos + i < packet.length) : packet[pos + i] = bytes[i] := by
  obtain ⟨before, after, rfl, rfl⟩ := holdsAt_iff.mp h
  simp [List.getElem_append_right, List.getElem_append_left, hi]

theorem HoldsAt.take_drop (h : HoldsAt packet pos bytes) :
    (packet.drop pos).take bytes.length = bytes :=
  (List.prefix_iff_eq_take.mp h.2).symm

/-- Byte strings that hold the same there. -/
theorem HoldsAt.agreeOn {q : Bytes} (h : HoldsAt packet pos bytes) (hq : HoldsAt q pos bytes) :
    AgreeOn pos (pos + bytes.length) packet q := by
  apply (agreeOn_iff_slice_eq (by omega)).mpr
  rw [Nat.add_sub_cancel_left, h.take_drop, hq.take_drop]

/-- A packet with the same bytes there holds them too. -/
theorem HoldsAt.congr {q : Bytes} (h : HoldsAt packet pos bytes)
    (hag : AgreeOn pos (pos + bytes.length) packet q) (hq : pos ≤ q.length) :
    HoldsAt q pos bytes := by
  have hslice := (agreeOn_iff_slice_eq (by omega)).mp hag
  rw [Nat.add_sub_cancel_left, h.take_drop] at hslice
  exact ⟨hq, hslice ▸ List.take_prefix _ _⟩

/-- The bytes of a format behind whatever stands in front of it. -/
theorem holdsAt_start (bytes after : Bytes) : HoldsAt (bytes ++ after) 0 bytes :=
  ⟨Nat.zero_le _, List.prefix_append _ _⟩

theorem HoldsAt.mono (h : HoldsAt packet pos (a ++ b)) : HoldsAt packet pos a :=
  (holdsAt_append.mp h).1

theorem HoldsAt.tail (h : HoldsAt packet pos (a ++ b)) : HoldsAt packet (pos + a.length) b :=
  (holdsAt_append.mp h).2

/-- The bytes found at a position stand there. -/
theorem holdsAt_take_drop {n : ℕ} (h : pos + n ≤ packet.length) :
    HoldsAt packet pos ((packet.drop pos).take n) :=
  ⟨by omega, List.take_prefix _ _⟩

end TransProxy.Library
