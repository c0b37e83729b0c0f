import Rndz.Lib.Protobuf
import Rndz.Net.RoundTrip

/-!
# The size of the text of a socket address

The text consists of ASCII characters, and of 61 at most: an IPv6 address takes no more than 42
of them, a number in it no more than its type has digits.
-/
namespace Rndz.Net

/-- A text of at most so many characters, all of them ASCII. -/
structure Short (n : Nat) (cs : List Char) : Prop where
  ascii : ∀ c ∈ cs, c.utf8Size = 1
  length : cs.length ≤ n

namespace Short

variable {m n : Nat} {cs ds : List Char}

theorem nil (n : Nat) : Short n [] := ⟨nofun, Nat.zero_le n⟩

theorem mono (h : Short m cs) (hle : m ≤ n) : Short n cs := ⟨h.ascii, h.length.trans hle⟩

theorem cons {c : Char} (hc : c.utf8Size = 1) (h : Short n cs) : Short (n + 1) (c :: cs) :=
  ⟨List.forall_mem_cons.mpr ⟨hc, h.ascii⟩, Nat.succ_le_succ h.length⟩

theorem append (h : Short m cs) (h' : Short n ds) : Short (m + n) (cs ++ ds) where
  ascii := List.forall_mem_append.mpr ⟨h.ascii, h'.ascii⟩
  length := by
    have := h.length
    have := h'.length
    rw [List.length_append]
    omega

end Short

theorem short_toDigits {radix n k : Nat} (hr : 1 < radix ∧ radix ≤ 16) (hk : 0 < k)
    (h : n < radix ^ k) : Short k (Nat.toDigits radix n) where
  ascii := by
    intro c hc
    obtain ⟨ds, htext, hds, -⟩ := toDigits_eq_map hr.1 n
    rw [htext] at hc
    obtain ⟨d, hd, rfl⟩ := List.mem_map.mp hc
    have h16 : ∀ d < 16, (Nat.digitChar d).utf8Size = 1 := by decide
    exact h16 d (lt_of_lt_of_le (hds d hd) hr.2)
  length := (Nat.length_toDigits_le_iff hr.1 hk).mpr h

theorem short_octet (a : UInt8) : Short 3 (Nat.toDigits 10 a.toNat) :=
  short_toDigits (by omega) (by omega) (by have := a.toNat_lt; omega)

theorem short_group (g : UInt16) : Short 4 (Nat.toDigits 16 g.toNat) :=
  short_toDigits (by omega) (by omega) (by have := g.toNat_lt; omega)

theorem short_port (port : UInt16) : Short 5 (Nat.toDigits 10 port.toNat) :=
  short_toDigits (by omega) (by omega) (by have := port.toNat_lt; omega)

theorem short_scopeId (scopeId : UInt32) : Short 10 (Nat.toDigits 10 scopeId.toNat) :=
  short_toDigits (by omega) (by omega) (by have := scopeId.toNat_lt; omega)

theorem Ipv4Addr.short_display (ip : Ipv4Addr) : Short 15 ip.display :=
  (short_octet ip.a).append <| .cons rfl <| (short_octet ip.b).append <| .cons rfl <|
    (short_octet ip.c).append <| .cons rfl <| short_octet ip.d

theorem short_displayTail (gs : List UInt16) : Short (5 * gs.length) (displayTail gs) := by
  induction gs with
  | nil => exact .nil _
  | cons g gs ih =>
    have := ((short_group g).cons (c := ':') rfl).append ih
    refine this.mono ?_
    rw [List.length_cons]
    omega

theorem short_displayGroups (gs : List UInt16) : Short (5 * gs.length) (displayGroups gs) := by
  cases gs with
  | nil => exact .nil _
  | cons g gs =>
    refine ((short_group g).append (short_displayTail gs)).mono ?_
    rw [List.length_cons]
    omega

theorem Ipv6Addr.short_display (ip : Ipv6Addr) : Short 42 ip.display := by
  unfold display
  split
  · rename_i ipv4 _
    have hmapped : Short 7 [':', ':', 'f', 'f', 'f', 'f', ':'] := ⟨by simp [Char.utf8Size], by simp⟩
    exact (hmapped.append ipv4.short_display).mono (by omega)
  · dsimp only
    split
    · refine ((short_displayGroups _).append
        (.cons rfl (.cons rfl (short_displayGroups _)))).mono ?_
      rw [List.length_take, List.length_drop, ip.eight]
      omega
    · refine (short_displayGroups ip.segments).mono ?_
      rw [ip.eight]
      decide

theorem SocketAddr.short_display (a : SocketAddr) : Short 61 a.display := by
  cases a with
  | v4 a => exact (a.ip.short_display.append (.cons rfl (short_port a.port))).mono (by omega)
  | v6 a =>
    simp only [display]
    split
    · exact .mono (.cons rfl (a.ip.short_display.append (.cons rfl (.cons rfl
        (short_port a.port))))) (by omega)
    · exact .mono (.cons rfl (a.ip.short_display.append (.cons rfl
        ((short_scopeId a.scopeId).append (.cons rfl (.cons rfl (short_port a.port)))))))
        (by omega)

/-- No text of a socket address takes more than 64 bytes. -/
theorem SocketAddr.utf8ByteSize_toString (a : SocketAddr) : a.toString.utf8ByteSize ≤ 64 := by
  rw [toString, Wire.utf8ByteSize_ofList a.short_display.ascii]
  exact a.short_display.length.trans (by omega)

theorem SocketAddr.stringSize_toString (a : SocketAddr) : Wire.stringSize a.toString ≤ 66 := by
  have hsize := a.utf8ByteSize_toString
  have := Wire.stringSize_le_of_lt (show a.toString.utf8ByteSize < 128 by omega)
  omega

end Rndz.Net
