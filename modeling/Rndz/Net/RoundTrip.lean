import Mathlib.Tactic.IntervalCases
import Rndz.Net.SocketAddr

/-!
# Parsing the text of a socket address

`SocketAddr.parse` recovers an address from its text, all but the flow label. The proof goes
up the grammar: digits, numbers, IPv4 addresses, groups, IPv6 addresses, socket addresses.
At each level the lemma is about the text followed by some `rest` at which the reader stops.
-/
namespace Rndz.Net

/-! ## Numbers -/

/-- No digit follows. -/
def StopsAt (radix : Nat) (rest : List Char) : Prop := ∀ c ∈ rest.head?, toDigit radix c = none

theorem toDigit_digitChar {radix d : Nat} (hr : radix ≤ 16) (hd : d < radix) :
    toDigit radix (Nat.digitChar d) = some d := by
  have h16 : ∀ d < 16, toDigit 16 (Nat.digitChar d) = some d := by decide
  have := h16 d (by omega)
  unfold toDigit at this ⊢
  rw [Option.filter_eq_some_iff] at this ⊢
  exact ⟨this.1, by simpa using hd⟩

theorem readDigits_append {radix : Nat} (hr : radix ≤ 16) {ds : List Nat} {rest : List Char}
    (hds : ∀ d ∈ ds, d < radix) (hrest : StopsAt radix rest) :
    readDigits radix (ds.map Nat.digitChar ++ rest) = (ds, rest) := by
  induction ds with
  | nil =>
    cases rest with
    | nil => rfl
    | cons c cs => simp [readDigits, hrest c rfl]
  | cons d ds ih =>
    have hd := toDigit_digitChar hr (hds d (by simp))
    have := ih fun d hd => hds d (by simp [hd])
    simp [readDigits, hd, this]

theorem digitsValue_concat (radix : Nat) (ds : List Nat) (d : Nat) :
    digitsValue radix (ds ++ [d]) = digitsValue radix ds * radix + d := by
  simp [digitsValue]

/-- What `toDigits` writes: digits of the number's value, with a leading zero for zero only. -/
theorem toDigits_eq_map {radix : Nat} (hr : 1 < radix) (n : Nat) :
    ∃ ds : List Nat, Nat.toDigits radix n = ds.map Nat.digitChar ∧ (∀ d ∈ ds, d < radix) ∧
      digitsValue radix ds = n ∧ ds ≠ [] ∧ (ds.head? = some 0 → n = 0 ∧ ds.length = 1) := by
  induction n using Nat.strongRecOn with
  | ind n ih =>
    rw [Nat.toDigits_eq_if hr]
    split
    · rename_i hlt
      exact ⟨[n], by simp, by simpa using hlt, by simp [digitsValue], by simp, by simp⟩
    · rename_i hle
      have hpos : 0 < n / radix := Nat.div_pos (by omega) (by omega)
      obtain ⟨ds, htext, hds, hvalue, hne, hzero⟩ := ih (n / radix) (Nat.div_lt_self (by omega) hr)
      refine ⟨ds ++ [n % radix], by simp [htext], ?_, ?_, by simp, fun h => ?_⟩
      · intro d hd
        rcases List.mem_append.mp hd with hd | hd
        · exact hds d hd
        · rw [List.mem_singleton.mp hd]
          exact Nat.mod_lt _ (by omega)
      · rw [digitsValue_concat, hvalue, Nat.div_add_mod']
      · have : ds.head? = some 0 := by
          rwa [List.head?_append_of_ne_nil _ hne] at h
        have := (hzero this).1
        omega

theorem readNumber_toDigits (maxDigits : Option Nat) (zeroPrefix : Bool) {radix bound n : Nat}
    {rest : List Char} (hr : 1 < radix) (hr' : radix ≤ 16) (hn : n < bound)
    (hmax : ∀ m ∈ maxDigits, 0 < m ∧ n < radix ^ m) (hrest : StopsAt radix rest) :
    readNumber radix maxDigits zeroPrefix bound (Nat.toDigits radix n ++ rest) =
      some (n, rest) := by
  obtain ⟨ds, htext, hds, hvalue, hne, hzero⟩ := toDigits_eq_map hr n
  have hread : readDigits radix (Nat.toDigits radix n ++ rest) = (ds, rest) := by
    rw [htext, readDigits_append hr' hds hrest]
  unfold readNumber
  rw [hread]
  have hlen : ∀ m ∈ maxDigits, ¬m < ds.length := by
    intro m hm
    obtain ⟨hpos, hlt⟩ := hmax m hm
    have := (Nat.length_toDigits_le_iff hr hpos).mpr hlt
    rw [htext, List.length_map] at this
    omega
  have hprefix : ¬((Nat.toDigits radix n ++ rest).head? = some '0' ∧ 1 < ds.length) := by
    rintro ⟨hhead, hlong⟩
    cases ds with
    | nil => exact hne rfl
    | cons d ds =>
      have hd : d = 0 := by simpa [htext] using hhead
      have := (hzero (by simp [hd])).2
      omega
  rw [if_neg, hvalue]
  rintro (h | ⟨m, hm, h⟩ | h | ⟨-, h⟩)
  · exact hne h
  · exact hlen m hm h
  · exact absurd hn (Nat.not_lt.mpr (hvalue ▸ h))
  · exact hprefix h

theorem readDigits_eq_nil {radix : Nat} {rest : List Char} (h : StopsAt radix rest) :
    readDigits radix rest = ([], rest) := by
  cases rest with
  | nil => rfl
  | cons c cs => simp [readDigits, h c rfl]

theorem readNumber_eq_none {radix bound : Nat} {maxDigits : Option Nat} {zeroPrefix : Bool}
    {rest : List Char} (h : StopsAt radix rest) :
    readNumber radix maxDigits zeroPrefix bound rest = none := by
  simp [readNumber, readDigits_eq_nil h]

theorem readPort_display (port : UInt16) {rest : List Char} (h : StopsAt 10 rest) :
    readPort (':' :: (Nat.toDigits 10 port.toNat ++ rest)) = some (port, rest) := by
  have hread := readNumber_toDigits none true (by omega) (by omega) port.toNat_lt (by simp) h
  simp [readPort, readGivenChar, hread]

theorem readScopeId_display (scopeId : UInt32) {rest : List Char} (h : StopsAt 10 rest) :
    readScopeId ('%' :: (Nat.toDigits 10 scopeId.toNat ++ rest)) = some (scopeId, rest) := by
  have hread := readNumber_toDigits none true (by omega) (by omega) scopeId.toNat_lt (by simp) h
  simp [readScopeId, readGivenChar, hread]

/-! ## IPv4 addresses -/

theorem readOctet_display (a : UInt8) {rest : List Char} (h : StopsAt 10 rest) :
    readOctet (Nat.toDigits 10 a.toNat ++ rest) = some (a, rest) := by
  have hlt : a.toNat < 256 := a.toNat_lt
  have hread := readNumber_toDigits (some 3) false (by omega) (by omega) hlt (by simp; omega) h
  simp [readOctet, hread]

theorem stopsAt_cons {radix : Nat} {c : Char} {cs : List Char} :
    StopsAt radix (c :: cs) ↔ toDigit radix c = none := by
  simp [StopsAt]

theorem readIpv4Addr_display (ip : Ipv4Addr) {rest : List Char} (h : StopsAt 10 rest) :
    readIpv4Addr (ip.display ++ rest) = some (ip, rest) := by
  have dot : ∀ cs, StopsAt 10 ('.' :: cs) := fun cs => stopsAt_cons.mpr (by decide)
  simp [readIpv4Addr, Ipv4Addr.display, readOctet_display _ (dot _), readOctet_display _ h,
    readGivenChar]

theorem stopsAt_of_le {radix radix' : Nat} {rest : List Char} (hle : radix ≤ radix')
    (h : StopsAt radix' rest) : StopsAt radix rest := by
  intro c hc
  have := h c hc
  unfold toDigit at this ⊢
  rw [Option.filter_eq_none_iff] at this ⊢
  intro d hd hlt
  exact this d hd (by simp at hlt ⊢; omega)

/-- The decimal digits at the front of a hexadecimal number are not followed by a dot. -/
theorem head_readDigits_ne_dot {ds : List Nat} {rest : List Char} (hds : ∀ d ∈ ds, d < 16)
    (hstop : StopsAt 16 rest) (hdot : rest.head? ≠ some '.') :
    (readDigits 10 (ds.map Nat.digitChar ++ rest)).2.head? ≠ some '.' := by
  induction ds with
  | nil =>
    rw [List.map_nil, List.nil_append, readDigits_eq_nil (stopsAt_of_le (by omega) hstop)]
    exact hdot
  | cons d ds ih =>
    have := ih fun d hd => hds d (by simp [hd])
    simp only [List.map_cons, List.cons_append, readDigits]
    split
    · exact this
    · simp

theorem readGivenChar_eq_none {target : Char} {cs : List Char} (h : cs.head? ≠ some target) :
    readGivenChar target cs = none := by
  cases cs with
  | nil => rfl
  | cons c cs => simpa [readGivenChar] using h

theorem readIpv4Addr_eq_none {cs : List Char} (h : (readDigits 10 cs).2.head? ≠ some '.') :
    readIpv4Addr cs = none := by
  unfold readIpv4Addr readOctet readNumber
  dsimp only
  split
  · rfl
  · have hnone := readGivenChar_eq_none h
    simp [hnone]

/-! ## Groups -/

theorem readGroup_display (g : UInt16) {rest : List Char} (h : StopsAt 16 rest) :
    readGroup (Nat.toDigits 16 g.toNat ++ rest) = some (g, rest) := by
  have hlt : g.toNat < 65536 := g.toNat_lt
  have hread := readNumber_toDigits (some 4) true (by omega) (by omega) hlt (by simp; omega) h
  simp [readGroup, hread]

theorem readIpv4Addr_group (g : UInt16) {rest : List Char} (hstop : StopsAt 16 rest)
    (hdot : rest.head? ≠ some '.') : readIpv4Addr (Nat.toDigits 16 g.toNat ++ rest) = none := by
  obtain ⟨ds, htext, hds, -⟩ := toDigits_eq_map (by omega : 1 < 16) g.toNat
  rw [htext]
  exact readIpv4Addr_eq_none (head_readDigits_ne_dot hds hstop hdot)

/-- Groups end here: no digit follows, not even behind a colon, and no dot. -/
structure Ends (rest : List Char) : Prop where
  stops : StopsAt 16 rest
  no_dot : rest.head? ≠ some '.'
  no_group : ∀ cs, rest = ':' :: cs → StopsAt 16 cs

theorem readIpv4Addr_stops {cs : List Char} (h : StopsAt 16 cs) : readIpv4Addr cs = none := by
  have h10 : StopsAt 10 cs := stopsAt_of_le (by omega) h
  simp [readIpv4Addr, readOctet, readNumber_eq_none h10]

theorem readGroup_stops {cs : List Char} (h : StopsAt 16 cs) : readGroup cs = none := by
  simp [readGroup, readNumber_eq_none h]

theorem readGroups_ends (n : Nat) (first : Bool) {rest : List Char} (h : Ends rest) :
    readGroups n first rest = ([], false, rest) := by
  have hcolon : ∀ cs, readColon first rest = some cs → StopsAt 16 cs := by
    intro cs hcs
    cases first with
    | true =>
      obtain rfl : rest = cs := by simpa [readColon] using hcs
      exact h.stops
    | false =>
      cases rest with
      | nil => simp [readColon, readGivenChar] at hcs
      | cons c rest =>
        obtain ⟨rfl, rfl⟩ : c = ':' ∧ rest = cs := by simpa [readColon, readGivenChar] using hcs
        exact h.no_group rest rfl
  cases n with
  | zero => rfl
  | succ n =>
    cases hr : readColon first rest with
    | none => simp [readGroups, hr]
    | some cs => simp [readGroups, hr, readIpv4Addr_stops (hcolon cs hr),
        readGroup_stops (hcolon cs hr)]

/-- A group is read as one, not as the start of an IPv4 address. -/
theorem readGroups_group {n : Nat} {first : Bool} (g : UInt16) {cs rest : List Char}
    (hcolon : readColon first cs = some (Nat.toDigits 16 g.toNat ++ rest))
    (hstop : StopsAt 16 rest) (hdot : rest.head? ≠ some '.') :
    readGroups (n + 1) first cs =
      (g :: (readGroups n false rest).1, (readGroups n false rest).2) := by
  simp [readGroups, hcolon, readIpv4Addr_group g hstop hdot, readGroup_display g hstop]

theorem stopsAt_tail (gs : List UInt16) {rest : List Char} (h : Ends rest) :
    StopsAt 16 (displayTail gs ++ rest) ∧ (displayTail gs ++ rest).head? ≠ some '.' := by
  cases gs with
  | nil => exact ⟨h.stops, h.no_dot⟩
  | cons g gs => exact ⟨stopsAt_cons.mpr (by decide), by simp [displayTail]⟩

theorem readGroups_tail {n : Nat} {gs : List UInt16} {rest : List Char} (hn : gs.length ≤ n)
    (h : Ends rest) : readGroups n false (displayTail gs ++ rest) = (gs, false, rest) := by
  induction gs generalizing n with
  | nil => exact readGroups_ends _ _ h
  | cons g gs ih =>
    obtain ⟨n, rfl⟩ : ∃ m, n = m + 1 := ⟨n - 1, by simp at hn; omega⟩
    obtain ⟨hstop, hdot⟩ := stopsAt_tail gs h
    have hcolon : readColon false (displayTail (g :: gs) ++ rest) =
        some (Nat.toDigits 16 g.toNat ++ (displayTail gs ++ rest)) := by
      simp [readColon, readGivenChar, displayTail]
    rw [readGroups_group g hcolon hstop hdot, ih (by simpa using hn)]

theorem readGroups_display {n : Nat} (gs : List UInt16) {rest : List Char} (hn : gs.length ≤ n)
    (h : Ends rest) : readGroups n true (displayGroups gs ++ rest) = (gs, false, rest) := by
  cases gs with
  | nil => exact readGroups_ends _ _ h
  | cons g gs =>
    obtain ⟨n, rfl⟩ : ∃ m, n = m + 1 := ⟨n - 1, by simp at hn; omega⟩
    obtain ⟨hstop, hdot⟩ := stopsAt_tail gs h
    have hcolon : readColon true (displayGroups (g :: gs) ++ rest) =
        some (Nat.toDigits 16 g.toNat ++ (displayTail gs ++ rest)) := by
      simp [readColon, displayGroups]
    rw [readGroups_group g hcolon hstop hdot, readGroups_tail (by simpa using hn) h]

/-! ## IPv6 addresses -/

/-- A run of zeros among the groups. -/
structure ZeroRun (segments : List UInt16) (span : Span) : Prop where
  inside : span.start + span.len ≤ segments.length
  zero : ∀ j, span.start ≤ j → j < span.start + span.len → segments[j]? = some 0

theorem zeroRun_longestZeros {segments rest : List UInt16} {longest current : Span} {i : Nat}
    (hrest : segments.drop i = rest) (hlongest : ZeroRun segments longest)
    (hcurrent : ZeroRun segments current)
    (hend : 0 < current.len → current.start + current.len = i) :
    ZeroRun segments (longestZeros longest current i rest) := by
  induction rest generalizing longest current i with
  | nil => exact hlongest
  | cons segment rest ih =>
    have hget : segments[i]? = some segment := by
      rw [← List.head?_drop, hrest, List.head?_cons]
    have hlt : i < segments.length := (List.getElem?_eq_some_iff.mp hget).1
    have hnext : segments.drop (i + 1) = rest := by
      rw [← List.tail_drop, hrest, List.tail_cons]
    simp only [longestZeros]
    split
    · rename_i hzero
      subst hzero
      -- the run goes on, or starts, at `i`
      have hrun : ZeroRun segments
          ⟨if current.len = 0 then i else current.start, current.len + 1⟩ := by
        by_cases hlen : current.len = 0
        · refine ⟨by simp [hlen]; omega, fun j hj hj' => ?_⟩
          simp [hlen] at hj hj'
          obtain rfl : j = i := by omega
          exact hget
        · have := hend (by omega)
          refine ⟨by simp [hlen]; omega, fun j hj hj' => ?_⟩
          simp [hlen] at hj hj'
          by_cases hji : j = i
          · exact hji ▸ hget
          · exact hcurrent.zero j hj (by omega)
      refine ih hnext ?_ hrun fun _ => ?_
      · split <;> assumption
      · simp only
        split <;> omega
    · exact ih hnext hlongest ⟨by simp, fun j _ hj => by simp at hj⟩ fun h => by simp at h

/-- Around a run of zeros the groups are put together again. -/
theorem ZeroRun.split {segments : List UInt16} {span : Span} (h : ZeroRun segments span) :
    segments.take span.start ++ List.replicate span.len 0 ++
      segments.drop (span.start + span.len) = segments := by
  have hzeros : (segments.drop span.start).take span.len = List.replicate span.len 0 := by
    have hinside := h.inside
    refine List.ext_getElem? fun j => ?_
    by_cases hj : j < span.len
    · rw [List.getElem?_take_of_lt hj, List.getElem?_drop, h.zero _ (by omega) (by omega)]
      simp [hj]
    · rw [List.getElem?_eq_none (by simp; omega), List.getElem?_eq_none (by simp; omega)]
  rw [← hzeros, List.append_assoc, ← List.drop_drop, List.take_append_drop,
    List.take_append_drop]

theorem group_div_mod (x : UInt16) :
    group (x.toNat / 256).toUInt8 (x.toNat % 256).toUInt8 = x := by
  have hlt : x.toNat < 65536 := x.toNat_lt
  apply UInt16.toNat_inj.mp
  simp [group]
  omega

theorem ends_colons (cs : List Char) : Ends (':' :: ':' :: cs) where
  stops := stopsAt_cons.mpr (by decide)
  no_dot := by simp
  no_group := fun cs' h => by
    obtain rfl : ':' :: cs = cs' := by simpa using h
    exact stopsAt_cons.mpr (by decide)

theorem readIpv6Addr_full (ip : Ipv6Addr) {rest : List Char} (h : Ends rest) :
    readIpv6Addr (displayGroups ip.segments ++ rest) = some (ip, rest) := by
  simp [readIpv6Addr, readGroups_display _ (Nat.le_of_eq ip.eight) h, ip.eight, Ipv6Addr.ofGroups]

theorem readIpv6Addr_compressed (ip : Ipv6Addr) {zeroes : Span} (hrun : ZeroRun ip.segments zeroes)
    (hlen : 1 < zeroes.len) {rest : List Char} (h : Ends rest) :
    readIpv6Addr (displayGroups (ip.segments.take zeroes.start) ++ ':' :: ':' ::
      displayGroups (ip.segments.drop (zeroes.start + zeroes.len)) ++ rest) = some (ip, rest) := by
  have height := ip.eight
  have hinside := hrun.inside
  have hhead : (ip.segments.take zeroes.start).length = zeroes.start := by simp; omega
  have htail : (ip.segments.drop (zeroes.start + zeroes.len)).length =
      8 - (zeroes.start + zeroes.len) := by simp [height]
  have hread := readGroups_display (n := 8) (ip.segments.take zeroes.start) (by omega)
    (ends_colons (displayGroups (ip.segments.drop (zeroes.start + zeroes.len)) ++ rest))
  have hread' := readGroups_display (n := 8 - (zeroes.start + 1))
    (ip.segments.drop (zeroes.start + zeroes.len)) (by omega) h
  have hzeros : 8 - zeroes.start - (8 - (zeroes.start + zeroes.len)) = zeroes.len := by omega
  have hne : zeroes.start ≠ 8 := by omega
  simp only [readIpv6Addr, List.append_assoc, List.cons_append, hread, hhead, hne, if_false,
    readGivenChar, if_true, Option.bind_eq_bind, Option.bind_some, hread', htail, hzeros]
  rw [← List.append_assoc, hrun.split]
  simp [Ipv6Addr.ofGroups, height]

theorem readIpv6Addr_mapped {ip : Ipv6Addr} {ipv4 : Ipv4Addr} (hip : ip.toIpv4Mapped = some ipv4)
    {rest : List Char} (h : StopsAt 10 rest) :
    readIpv6Addr ("::ffff:".toList ++ ipv4.display ++ rest) = some (ip, rest) := by
  have hread := readGroups_ends 8 true
    (ends_colons ('f' :: 'f' :: 'f' :: 'f' :: ':' :: (ipv4.display ++ rest)))
  have hffff : readGroups 7 true ('f' :: 'f' :: 'f' :: 'f' :: ':' :: (ipv4.display ++ rest)) =
      ([0xffff, group ipv4.a ipv4.b, group ipv4.c ipv4.d], true, rest) := by
    have hcolon : readColon true ('f' :: 'f' :: 'f' :: 'f' :: ':' :: (ipv4.display ++ rest)) =
        some (Nat.toDigits 16 (0xffff : UInt16).toNat ++ ':' :: (ipv4.display ++ rest)) := rfl
    rw [readGroups_group 0xffff hcolon (stopsAt_cons.mpr (by decide)) (by simp)]
    simp [readGroups, readColon, readGivenChar, readIpv4Addr_display ipv4 h]
  have htext : "::ffff:".toList ++ ipv4.display ++ rest =
      ':' :: ':' :: 'f' :: 'f' :: 'f' :: 'f' :: ':' :: (ipv4.display ++ rest) := rfl
  obtain ⟨segments, eight⟩ := ip
  unfold Ipv6Addr.toIpv4Mapped at hip
  split at hip
  · rename_i x y hsegments
    obtain rfl := Option.some.inj hip
    simp only at hsegments
    subst hsegments
    rw [htext]
    simp [readIpv6Addr, hread, readGivenChar, hffff, Ipv6Addr.ofGroups, group_div_mod]
  · cases hip

theorem readIpv6Addr_display (ip : Ipv6Addr) {rest : List Char} (h : Ends rest) :
    readIpv6Addr (ip.display ++ rest) = some (ip, rest) := by
  unfold Ipv6Addr.display
  split
  · rename_i ipv4 hip
    exact readIpv6Addr_mapped hip (stopsAt_of_le (by omega) h.stops)
  · dsimp only
    split
    · rename_i hlen
      have empty : ZeroRun ip.segments ⟨0, 0⟩ := ⟨by simp, fun j _ hj => by simp at hj⟩
      exact readIpv6Addr_compressed ip
        (zeroRun_longestZeros rfl empty empty fun h => by simp at h) hlen h
    · exact readIpv6Addr_full ip h

/-! ## Socket addresses -/

theorem ends_cons {c : Char} {cs : List Char} (hdigit : toDigit 16 c = none) (hdot : c ≠ '.')
    (hcolon : c ≠ ':') : Ends (c :: cs) where
  stops := stopsAt_cons.mpr hdigit
  no_dot := by simpa using hdot
  no_group := fun cs' h => absurd (List.cons.inj h).1 hcolon

theorem readPort_end (port : UInt16) :
    readPort (':' :: Nat.toDigits 10 port.toNat) = some (port, []) := by
  have hstop : StopsAt 10 [] := by simp [StopsAt]
  simpa using readPort_display port hstop

theorem readSocketAddrV4_display (a : SocketAddrV4) :
    readSocketAddrV4 (SocketAddr.v4 a).display = some (a, []) := by
  have hstop : StopsAt 10 (':' :: Nat.toDigits 10 a.port.toNat) := stopsAt_cons.mpr (by decide)
  have hip := readIpv4Addr_display a.ip hstop
  simp [readSocketAddrV4, SocketAddr.display, hip, readPort_end]

theorem readSocketAddrV6_display (a : SocketAddrV6) :
    readSocketAddrV6 (SocketAddr.v6 a).display = some ({ a with flowinfo := 0 }, []) := by
  by_cases hscope : a.scopeId = 0
  · have hend : Ends (']' :: ':' :: Nat.toDigits 10 a.port.toNat) :=
      ends_cons (by decide) (by decide) (by decide)
    simp [readSocketAddrV6, SocketAddr.display, hscope, readIpv6Addr_display a.ip hend, readScopeId,
      readGivenChar, readPort_end]
  · have hend : Ends ('%' :: (Nat.toDigits 10 a.scopeId.toNat ++
        ']' :: ':' :: Nat.toDigits 10 a.port.toNat)) :=
      ends_cons (by decide) (by decide) (by decide)
    have hstop : StopsAt 10 (']' :: ':' :: Nat.toDigits 10 a.port.toNat) :=
      stopsAt_cons.mpr (by decide)
    simp [readSocketAddrV6, SocketAddr.display, hscope, readIpv6Addr_display a.ip hend,
      readScopeId_display a.scopeId hstop, readGivenChar, readPort_end]

theorem SocketAddr.display_v6 (a : SocketAddrV6) : ∃ cs, (SocketAddr.v6 a).display = '[' :: cs := by
  unfold display
  dsimp only
  split <;> exact ⟨_, rfl⟩

/-- The text of an address is parsed as this address. -/
theorem SocketAddr.parse_toString (a : SocketAddr) : parse a.toString = some a.withoutFlowinfo := by
  unfold parse toString
  rw [String.toList_ofList]
  cases a with
  | v4 a => simp [readSocketAddrV4_display, withoutFlowinfo]
  | v6 a =>
    have hv4 : readSocketAddrV4 (SocketAddr.v6 a).display = none := by
      obtain ⟨cs, hcs⟩ := display_v6 a
      have hstop : StopsAt 16 ('[' :: cs) := stopsAt_cons.mpr (by decide)
      simp [readSocketAddrV4, hcs, readIpv4Addr_stops hstop]
    simp [hv4, readSocketAddrV6_display, withoutFlowinfo]

end Rndz.Net
