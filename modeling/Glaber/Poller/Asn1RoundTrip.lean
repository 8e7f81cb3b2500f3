import Glaber.Poller.Asn1Enc
import Glaber.Poller.Asn1Int

namespace Glaber.Poller.Asn1

open Glaber.Lib.Traced Glaber.Poller.Csnmp

section

variable {b : Mem} {i : ℤ} {c : UInt8} {bytes bytes' : List UInt8}

lemma standsAt_cons : StandsAt b i (c :: bytes) ↔ b i = c ∧ StandsAt b (i + 1) bytes := by
  constructor
  · intro h
    refine ⟨by simpa using h 0 c rfl, fun k x hx => ?_⟩
    have := h (k + 1) x hx
    rwa [Nat.cast_succ, add_comm (k : ℤ), ← add_assoc] at this
  · rintro ⟨hhead, htail⟩ k x hx
    cases k with
    | zero => simpa using hhead.trans (Option.some.inj hx)
    | succ k =>
      have := htail k x hx
      rwa [add_assoc, add_comm 1, ← Nat.cast_succ] at this

lemma standsAt_append : StandsAt b i (bytes ++ bytes') ↔ StandsAt b i bytes ∧ StandsAt b (i + bytes.length) bytes' := by
  induction bytes generalizing i with
  | nil => simp [StandsAt]
  | cons c bytes ih =>
    rw [List.cons_append, standsAt_cons, ih, standsAt_cons, and_assoc, List.length_cons, Nat.cast_succ, add_assoc i,
      add_comm 1]

lemma StandsAt.range (h : StandsAt b i bytes) : (List.range bytes.length).map (fun k : ℕ => b (i + k)) = bytes := by
  apply List.ext_getElem
  · simp
  · intro k hk hk'
    rw [List.getElem_map, List.getElem_range]
    exact h k _ (List.getElem?_eq_getElem hk')

lemma ofInt_eq {x : ℤ} {n : ℕ} (h : x % 256 = n) : UInt8.ofInt x = UInt8.ofNat n := by
  rw [UInt8.ofInt]
  congr 1
  omega

lemma byte_bits : ∀ x : Fin 256, (UInt8.ofNat x &&& 0x80 = 0 ↔ x.val < 128) ∧
    (UInt8.ofNat x &&& longLen = longLen ↔ 128 ≤ x.val) ∧ (UInt8.ofNat x &&& 0x7f).toNat = x.val % 128 ∧
    UInt8.ofNat x ||| 0x80 = UInt8.ofNat (x.val % 128 + 128) ∧ (UInt8.ofNat x &&& 0xf).toNat = x.val % 16 := by
  decide +kernel

end

section

variable {b : Mem} {l i : ℤ}

lemma lt_pow_shifts {fuel q : ℕ} (h : q < 256 ^ fuel) : q < 256 ^ shifts fuel q := by
  induction fuel generalizing q with
  | zero => exact h
  | succ fuel ih =>
    rw [shifts]
    split_ifs with hzero
    · simp [hzero]
    · have hdiv := ih (Nat.div_lt_of_lt_mul (by rwa [pow_succ, mul_comm] at h))
      rw [pow_succ]
      exact (Nat.div_lt_iff_lt_mul (by norm_num)).mp hdiv

lemma shifts_le {fuel k q : ℕ} (h : q < 256 ^ k) : shifts fuel q ≤ k := by
  induction fuel generalizing k q with
  | zero => exact Nat.zero_le _
  | succ fuel ih =>
    rw [shifts]
    split_ifs with hzero
    · exact Nat.zero_le _
    · cases k with
      | zero => exact absurd (Nat.lt_one_iff.mp h) hzero
      | succ k =>
        rw [pow_succ] at h
        exact Nat.succ_le_succ (ih (Nat.div_lt_of_lt_mul (by rwa [mul_comm] at h)))

lemma gather_bigEndian {v : ℕ} (hv : v < 2 ^ 31) {m : ℕ}
    (h : StandsAt b i ((List.range m).reverse.map fun j => UInt8.ofNat (v / 256 ^ j))) :
    gather b m (v / 256 ^ m : ℕ) i = v := by
  induction m generalizing i with
  | zero => simp [gather]
  | succ m ih =>
    rw [List.range_succ, List.reverse_append, List.reverse_singleton, List.singleton_append, List.map_cons,
      standsAt_cons] at h
    have hdiv : v / 256 ^ (m + 1) = v / 256 ^ m / 256 := by rw [pow_succ, Nat.div_div_eq_div_mul]
    have hle : v / 256 ^ m ≤ v := Nat.div_le_self _ _
    have hrest := ih h.2
    rw [gather, h.1, UInt8.toNat_ofNat', hdiv]
    generalize v / 256 ^ m = w at *
    rwa [cint_of_lt (by omega) (by omega), show ((w / 256 : ℕ) : ℤ) * 256 + (w % 2 ^ 8 : ℕ) = w by omega]

lemma decLength_ends {len : ℕ} (hlen : len < 2 ^ 31) (hb : StandsAt b i (lenBytes len)) (hi : 0 ≤ i)
    (hl : i + lenSize len ≤ l) (hmax : l < 2 ^ 31) : Ends (decLength b l) i len (i + lenSize len) := by
  rw [lenBytes] at hb
  rw [lenSize] at hl ⊢
  by_cases hshort : (len : ℤ) < 0x80
  · rw [if_pos hshort] at hb hl ⊢
    have hbyte : b i = UInt8.ofNat len := (standsAt_cons.mp hb).1.trans (ofInt_eq (by omega))
    obtain ⟨-, hlong, -⟩ := byte_bits ⟨len, by omega⟩
    have htoNat : (UInt8.ofNat len).toNat = len := by
      rw [UInt8.toNat_ofNat']
      omega
    have hclear : UInt8.ofNat len &&& longLen ≠ longLen := fun h => by
      have := hlong.mp h
      simp only at this
      omega
    push_cast at hl
    rw [decLength, ends_get_bind, if_neg (by omega), ends_readByte_bind, hbyte, if_pos hclear, htoNat, ends_pure]
    exact ⟨rfl, by simp⟩
  · rw [if_neg hshort] at hb hl ⊢
    rw [Int.toNat_natCast] at hb hl ⊢
    generalize hn : 1 + shifts 4 (len / 256) = n at hb
    have hsize : 2 + shifts 4 (len / 256) = n + 1 := by omega
    have hle : shifts 4 (len / 256) ≤ 3 := shifts_le (by omega)
    have hvalue : len < 256 ^ n := by
      have := @lt_pow_shifts 4 (len / 256) (by omega)
      rw [← hn, add_comm, pow_succ]
      omega
    rw [hsize] at hl ⊢
    obtain ⟨hhead, htail⟩ := standsAt_cons.mp hb
    obtain ⟨-, -, -, hmark, -⟩ := byte_bits ⟨n, by omega⟩
    obtain ⟨-, hlong, -, -, hcount⟩ := byte_bits ⟨n % 128 + 128, by omega⟩
    have hbyte : b i = UInt8.ofNat (n % 128 + 128) := hhead.trans hmark
    have hgather : gather b n 0 (i + 1) = len := by
      have := gather_bigEndian hlen htail
      rwa [Nat.div_eq_of_lt hvalue] at this
    have hn4 : (UInt8.ofNat (n % 128 + 128) &&& 0xf).toNat = n := by
      rw [hcount]
      simp only
      omega
    rw [decLength, ends_get_bind, if_neg (by omega), ends_readByte_bind, hbyte, if_neg (not_not.mpr (hlong.mpr (by simp))), hn4,
      ends_get_bind, cint_of_lt (by omega) (by omega), if_neg (by omega), ← hgather]
    have := ends_moreBytes b l (i + 1) n 0
    rwa [show i + ((n + 1 : ℕ) : ℤ) = i + 1 + n by push_cast; ring]

end

section

variable {b : Mem} {l i i' : ℤ} {q : Int32} {ids x : List ℤ}

lemma low_eq (q : Int32) : low q = UInt8.ofNat (q.toInt % 128).toNat := ofInt_eq (by omega)

lemma high_eq (q : Int32) (place : ℕ) : high q place = UInt8.ofNat ((q.toInt / 128 ^ place % 128).toNat + 128) := by
  have hbits := byte_bits ⟨(q.toInt / 128 ^ place % 256).toNat, by omega⟩
  rw [high, ofInt_eq (n := (q.toInt / 128 ^ place % 256).toNat) (by omega), hbits.2.2.2.1]
  congr 2
  simp only
  omega

lemma subIdBytes_places (h : 0 ≤ q.toInt) : ∃ k ≤ 4, q.toInt < 128 ^ (k + 1) ∧
    subIdBytes q = ((List.range k).reverse.map fun p => high q (p + 1)) ++ [low q] := by
  have hmax := q.toInt_lt
  rw [subIdBytes]
  simp only [Int32.lt_iff_toInt_lt]
  split_ifs with h0 h1 h2 h3
  · refine ⟨0, by omega, by simpa using h0, ?_⟩
    rw [low, Int.emod_eq_of_lt h (by simpa using h0)]
    rfl
  · exact ⟨1, by omega, by simpa using h1, rfl⟩
  · exact ⟨2, by omega, by simpa using h2, rfl⟩
  · exact ⟨3, by omega, by simpa using h3, rfl⟩
  · exact ⟨4, by omega, by omega, rfl⟩

lemma oidBytes_highs (h : 0 ≤ q.toInt) {k m : ℕ} (hb : StandsAt b i ((List.range k).reverse.map fun p => high q (p + 1))) :
    Ends (oidBytes b l (k + m) (q.toInt / 128 ^ (k + 1)) ids) i x i' ↔
      Ends (oidBytes b l m (q.toInt / 128) ids) (i + k) x i' := by
  induction k generalizing i with
  | zero => simp
  | succ k ih =>
    rw [List.range_succ, List.reverse_append, List.reverse_singleton, List.singleton_append, List.map_cons,
      standsAt_cons] at hb
    have hmax := q.toInt_lt
    have hdiv : q.toInt / 128 ^ (k + 1 + 1) = q.toInt / 128 ^ (k + 1) / 128 := by
      rw [pow_succ (128 : ℤ) (k + 1), Int.ediv_ediv_of_nonneg (by positivity)]
    have hnonneg : 0 ≤ q.toInt / 128 ^ (k + 1) := Int.ediv_nonneg h (by positivity)
    have hle : q.toInt / 128 ^ (k + 1) ≤ q.toInt := Int.ediv_le_self _ h
    have hbits := byte_bits ⟨(q.toInt / 128 ^ (k + 1) % 128).toNat + 128, by omega⟩
    rw [show k + 1 + m = (k + m) + 1 by ring, oidBytes, ends_readByte_bind, hb.1, high_eq, hbits.2.2.1, hdiv]
    simp only
    rw [if_neg (by rw [hbits.1]; simp), Nat.cast_succ, ← add_assoc i, add_right_comm i, ← ih hb.2]
    generalize q.toInt / 128 ^ (k + 1) = w at hnonneg hle ⊢
    rw [cint_of_lt (by omega) (by omega), show w / 128 * 128 + ((((w % 128).toNat + 128) % 128 : ℕ) : ℤ) = w by omega]

lemma oidBytes_subId (h : 0 ≤ q.toInt) (m : ℕ) (hb : StandsAt b i (subIdBytes q)) :
    Ends (oidBytes b l ((subIdBytes q).length + m) 0 ids) i x i' ↔
      Ends (oidBytes b l m 0 (ids ++ [q.toInt])) (i + (subIdBytes q).length) x i' := by
  obtain ⟨k, -, hlt, hbytes⟩ := subIdBytes_places h
  have hmax := q.toInt_lt
  rw [hbytes, standsAt_append, standsAt_cons, List.length_map, List.length_reverse, List.length_range] at hb
  have hstart : (0 : ℤ) = q.toInt / 128 ^ (k + 1) := (Int.ediv_eq_zero_of_lt h hlt).symm
  have hbits := byte_bits ⟨(q.toInt % 128).toNat, by omega⟩
  rw [hbytes, List.length_append, List.length_map, List.length_reverse, List.length_range, List.length_singleton,
    add_assoc, add_comm 1 m]
  conv_lhs => rw [hstart]
  rw [oidBytes_highs h hb.1, oidBytes, ends_readByte_bind, hb.2.1, low_eq, hbits.2.2.1, if_pos (hbits.1.mpr (by simp only; omega)),
    cint_of_lt (by omega) (by omega)]
  simp only
  rw [show q.toInt / 128 * 128 + (((q.toInt % 128).toNat % 128 : ℕ) : ℤ) = q.toInt by omega, Nat.cast_succ, add_assoc i]

lemma oidBytes_all {qs : List Int32} (h : ∀ q ∈ qs, 0 ≤ q.toInt) (hb : StandsAt b i (qs.flatMap subIdBytes)) :
    Ends (oidBytes b l (qs.flatMap subIdBytes).length 0 ids) i (ids ++ qs.map Int32.toInt)
      (i + (qs.flatMap subIdBytes).length) := by
  induction qs generalizing i ids with
  | nil => simp [oidBytes]
  | cons q qs ih =>
    rw [List.flatMap_cons, standsAt_append] at hb
    rw [List.flatMap_cons, List.length_append, oidBytes_subId (h q List.mem_cons_self) _ hb.1]
    have := @ih _ (ids ++ [q.toInt]) (fun q hq => h q (List.mem_cons_of_mem _ hq)) hb.2
    rwa [List.append_assoc, List.singleton_append, ← List.map_cons, add_assoc, ← Nat.cast_add] at this

end

section

variable {out out' : EncBuf} {tp : UInt8} {b : Mem}

lemma grow_of_room (realloc : ℕ → Option (ℕ → UInt8)) {s : ℕ} (h : out.used + s ≤ out.capacity) :
    grow realloc (cint s) out = .ok out := by
  have hcap : out.capacity < 2 ^ 31 := out.int
  have hused := out.fits
  rw [cint_of_lt (by omega) (by omega)]
  exact if_pos (by rw [cint_of_lt (by omega) (by omega)]; omega)

lemma putAll_stands {bytes : List UInt8} (h : out.used + bytes.length ≤ out.capacity) : ∃ out',
    putAll bytes out = .ok out' ∧ out'.used = out.used + bytes.length ∧
      ∀ b, StandsAt b 0 out'.block → StandsAt b out.used bytes := by
  obtain ⟨out', hrun, hused, hblock⟩ := putAll_fits h
  refine ⟨out', hrun, hused, fun b hb => ?_⟩
  have hfits := out.fits
  rw [hblock, standsAt_append, standsAt_append, List.length_take, min_eq_left hfits, zero_add] at hb
  exact hb.1.2

lemma subIdSize_eq (q : Int32) : subIdSize q = (subIdBytes q).length := by
  rw [subIdSize, subIdBytes]
  split_ifs <;> rfl

lemma foldl_subIdSize {ids : List Int32} {a : ℤ} (ha : 0 ≤ a) (h : a + (ids.flatMap subIdBytes).length < 2 ^ 31) :
    ids.foldl (fun len q => cint (len + subIdSize q)) a = a + (ids.flatMap subIdBytes).length := by
  induction ids generalizing a with
  | nil => simp
  | cons q ids ih =>
    rw [List.flatMap_cons, List.length_append, Nat.cast_add] at h ⊢
    rw [List.foldl_cons, subIdSize_eq, cint_of_lt (by omega) (by omega), ih (by omega) (by omega)]
    ring

def Asn1Oid.Valid (oid : Asn1Oid) : Prop :=
  ∃ (first second : Int32) (ids : List Int32), oid.b = first :: second :: ids ∧ 0 ≤ first.toInt ∧ first.toInt ≤ 2 ∧
    0 ≤ second.toInt ∧ second.toInt < 40 ∧ ∀ q ∈ ids, 0 ≤ q.toInt

lemma firstByte_valid {first second : Int32} (ids : List Int32) (hfirst : first.toInt ≤ 2) (hsecond : second.toInt < 40) :
    firstByte (first :: second :: ids) = some (UInt8.ofInt (first.toInt * 40 + second.toInt)) := by
  rw [firstByte, if_neg (by rw [Int32.lt_iff_toInt_lt]; exact not_lt.mpr hfirst)]
  rw [if_neg (by rw [Int32.le_iff_toInt_le]; exact not_le.mpr hsecond)]

lemma schar_firstByte {n : ℤ} (h0 : 0 ≤ n) (h1 : n < 120) : schar (UInt8.ofInt n) = n := by
  rw [ofInt_eq (n := n.toNat) (by omega), schar_eq, UInt8.toNat_ofNat']
  omega

lemma oidLen_valid {oid : Asn1Oid} {first second : Int32} {ids : List Int32} (hoid : oid.b = first :: second :: ids)
    (h : (ids.flatMap subIdBytes).length + 1 < 2 ^ 31) : oidLen oid = (1 + (ids.flatMap subIdBytes).length : ℕ) := by
  have hsum := @foldl_subIdSize ids 1 (by omega) (by omega)
  rw [oidLen, hoid]
  exact_mod_cast hsum

lemma encOid_decOid (realloc : ℕ → Option (ℕ → UInt8)) (tp : UInt8) {oid : Asn1Oid} (hvalid : oid.Valid)
    (hroom : out.used + (oidBytesWritten tp oid).length ≤ out.capacity) :
    ∃ out', encOid realloc tp oid out = .ok out' ∧ out'.used = out.used + (oidBytesWritten tp oid).length ∧
      ∀ b (l : ℤ), StandsAt b 0 out'.block → out'.used ≤ l → l < 2 ^ 31 →
        Ends (decOid b l) (out.used + 1) (oid.b.map Int32.toInt) out'.used := by
  obtain ⟨first, second, ids, hoid, hf0, hf2, hs0, hs40, hids⟩ := hvalid
  have hfirst := firstByte_valid ids hf2 hs40
  have hcap : out.capacity < 2 ^ 31 := out.int
  have hwritten : oidBytesWritten tp oid = tp :: (lenBytes (oidLen oid) ++
      UInt8.ofInt (first.toInt * 40 + second.toInt) :: ids.flatMap subIdBytes) := by
    rw [oidBytesWritten, hoid, hfirst, Option.elim_some]
    rfl
  have hlen : (oidBytesWritten tp oid).length = 1 + lenSize (oidLen oid) + 1 + (ids.flatMap subIdBytes).length := by
    rw [hwritten, List.length_cons, List.length_append, lenBytes_length, List.length_cons]
    ring
  have hcontents := oidLen_valid hoid (by omega)
  obtain ⟨out', hput, hused, hstands⟩ := putAll_stands hroom
  refine ⟨out', ?_, hused, fun b l hb hl hmax => ?_⟩
  · have hrequest : 1 + lenSize (oidLen oid) + oidLen oid = ((oidBytesWritten tp oid).length : ℤ) := by
      rw [hlen]
      omega
    rw [encOid_eq, oidRequest, hrequest, grow_of_room realloc hroom, hoid, hfirst]
    change (putAll (oidBytesWritten tp oid) out >>= fun out => Except.ok out) = _
    rw [hput]
    rfl
  · have hbytes := hstands b hb
    rw [hwritten, standsAt_cons, standsAt_append, lenBytes_length, standsAt_cons] at hbytes
    obtain ⟨-, hlength, hbyte, hrest⟩ := hbytes
    rw [hlen] at hused
    rw [hcontents] at hlength hbyte hrest hused
    generalize hn : (ids.flatMap subIdBytes).length = n at *
    have hdec := decLength_ends (l := l) (by omega) hlength (by omega) (by omega) hmax
    have hdiv : (first.toInt * 40 + second.toInt).tdiv 40 = first.toInt := by
      rw [Int.tdiv_eq_ediv_of_nonneg (by omega)]
      omega
    have hmod : (first.toInt * 40 + second.toInt).tmod 40 = second.toInt := by
      rw [Int.tmod_eq_emod_of_nonneg (by omega)]
      omega
    have hall := @oidBytes_all _ l _ [first.toInt, second.toInt] _ hids hrest
    rw [decOid, decBody, ends_bind]
    refine ⟨_, _, hdec, ?_⟩
    rw [if_neg (by omega), ends_get_bind, cint_of_lt (by omega) (by omega), if_neg (by omega), idBytes, if_neg (by omega),
      ends_readByte_bind, hbyte, schar_firstByte (by omega) (by omega)]
    simp only [hdiv, hmod]
    rw [hn] at hall
    rw [hoid, hused, List.map_cons, List.map_cons, show ((1 + n : ℕ) - 1 : ℤ).toNat = n by omega]
    convert hall using 1
    · rfl
    · push_cast
      ring

lemma encString_decString (realloc : ℕ → Option (ℕ → UInt8)) (tp : UInt8) (val : Asn1Str)
    (hroom : out.used + (stringBytes tp val).length ≤ out.capacity) :
    ∃ out', encString realloc tp val out = .ok out' ∧ out'.used = out.used + (stringBytes tp val).length ∧
      ∀ b (l : ℤ), StandsAt b 0 out'.block → out'.used ≤ l → l < 2 ^ 31 →
        Ends (decString b l true) (out.used + 1) val.b out'.used := by
  have hcap : out.capacity < 2 ^ 31 := out.int
  have hlen : (stringBytes tp val).length = 1 + lenSize val.b.length + val.b.length := by
    rw [stringBytes, List.length_cons, List.length_append, lenBytes_length]
    ring
  obtain ⟨out', hput, hused, hstands⟩ := putAll_stands hroom
  refine ⟨out', ?_, hused, fun b l hb hl hmax => ?_⟩
  · have hgrow := grow_of_room realloc (hlen ▸ hroom)
    push_cast at hgrow
    rw [encString_eq, stringRequest, hgrow]
    exact hput
  · have hbytes := hstands b hb
    rw [stringBytes, standsAt_cons, standsAt_append, lenBytes_length] at hbytes
    obtain ⟨-, hlength, hval⟩ := hbytes
    have hdec := decLength_ends (l := l) val.int hlength (by omega) (by omega) hmax
    rw [hlen] at hused
    rw [decString, decBody, ends_bind]
    refine ⟨_, _, hdec, ?_⟩
    rw [if_neg (by omega), ends_get_bind, cint_of_lt (by omega) (by omega), if_neg (by omega), strBytes, ends_get_bind]
    simp only [if_true, ends_note_bind, ends_set_bind, ends_pure, Int.toNat_natCast]
    rw [cint_of_lt (by omega) (by omega)]
    refine ⟨?_, by omega⟩
    rw [bind_pure_comp, List.map_eq_map, List.map_map]
    exact hval.range

theorem oid_and_string_read_back (realloc : ℕ → Option (ℕ → UInt8)) (tp : UInt8) (out : EncBuf) :
    (∀ oid : Asn1Oid, oid.Valid → out.used + (oidBytesWritten tp oid).length ≤ out.capacity →
      ∃ out', encOid realloc tp oid out = .ok out' ∧ out'.used = out.used + (oidBytesWritten tp oid).length ∧
        ∀ b (l : ℤ), StandsAt b 0 out'.block → out'.used ≤ l → l < 2 ^ 31 →
          Ends (decOid b l) (out.used + 1) (oid.b.map Int32.toInt) out'.used) ∧
    ∀ val : Asn1Str, out.used + (stringBytes tp val).length ≤ out.capacity →
      ∃ out', encString realloc tp val out = .ok out' ∧ out'.used = out.used + (stringBytes tp val).length ∧
        ∀ b (l : ℤ), StandsAt b 0 out'.block → out'.used ≤ l → l < 2 ^ 31 →
          Ends (decString b l true) (out.used + 1) val.b out'.used :=
  ⟨fun _ hvalid hroom => encOid_decOid realloc tp hvalid hroom, fun val hroom => encString_decString realloc tp val hroom⟩

def eightZeros : EncBuf := ⟨List.replicate 8 0, 0, by decide, by decide⟩

theorem oid_1_3_200_read_back : ∃ out', encOid (fun _ => none) oid ⟨[1, 3, 200], by decide⟩ eightZeros = .ok out' ∧
    ∀ b, StandsAt b 0 out'.block → Ends (decOid b 5) 1 [1, 3, 200] 5 := by
  obtain ⟨out', hrun, hused, hback⟩ := (oid_and_string_read_back (fun _ => none) oid eightZeros).1
    ⟨[1, 3, 200], by decide⟩ ⟨1, 3, [200], rfl, by decide, by decide, by decide, by decide, by decide⟩ (by decide)
  have hfive : out'.used = 5 := hused.trans (by decide)
  rw [hfive] at hback
  exact ⟨out', hrun, fun b hb => hback b 5 hb (by decide) (by decide)⟩

end

end Glaber.Poller.Asn1
