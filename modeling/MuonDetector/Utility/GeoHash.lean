import MuonDetector.Library.Bisection

/-!
# Geohashes

The position is found by bisection of the longitude and the latitude in turn. Five bits
make a character of the hash.
-/

namespace MuonDetector.Utility.GeoHash

open MuonDetector.Library MuonDetector.Library.Bisection MuonDetector.Library.Floats
open MuonDetector.Library.Exact

/-- The map of base 32. -/
def base32 : List Char := "0123456789bcdefghjkmnpqrstuvwxyz".toList

variable {F : Type}

/-- The variables of the loop. The index and the bit count have 8 bits. -/
structure Progress (F : Type) where
  idx : UInt8 := 0
  bit : UInt8 := 0
  evenBit : Bool := true
  geohash : List Char := []
  latMin : F
  latMax : F
  lonMin : F
  lonMax : F
  deriving DecidableEq, Repr

section

variable [Floating F]

/-- Bisects the longitude. -/
def bisectLon (lon : F) (s : Progress F) : Progress F :=
  let lonMid := (s.lonMin + s.lonMax) / 2.0
  if lonMid ≤ lon then { s with idx := s.idx * 2 + 1, lonMin := lonMid }
  else { s with idx := s.idx * 2, lonMax := lonMid }

/-- Bisects the latitude. -/
def bisectLat (lat : F) (s : Progress F) : Progress F :=
  let latMid := (s.latMin + s.latMax) / 2.0
  if latMid ≤ lat then { s with idx := s.idx * 2 + 1, latMin := latMid }
  else { s with idx := s.idx * 2, latMax := latMid }

/-- Five bits make a character, and an index that the map does not have throws. -/
def appendChar (s : Progress F) : Option (Progress F) :=
  let s := { s with evenBit := !s.evenBit, bit := s.bit + 1 }
  if s.bit = 5 then
    base32[s.idx.toNat]?.map fun c => { s with geohash := s.geohash ++ [c], bit := 0, idx := 0 }
  else some s

/-- The body of the loop. -/
def iterate (lon lat : F) (s : Progress F) : Option (Progress F) :=
  appendChar (if s.evenBit then bisectLon lon s else bisectLat lat s)

/-- The loop, for as many rounds as there is fuel. -/
def loop (lon lat : F) (precision : Nat) : Nat → Progress F → Option (List Char)
  | 0, _ => none
  | fuel + 1, s =>
    if s.geohash.length < precision then
      (iterate lon lat s).bind (loop lon lat precision fuel)
    else some s.geohash

/-- The whole earth. -/
def start : Progress F where
  latMin := Floating.ofInt (-90)
  latMax := 90.0
  lonMin := Floating.ofInt (-180)
  lonMax := 180.0

/-- The number of characters that are asked for. -/
def effective (precision : Int) : Nat :=
  if precision < 0 ∨ precision > 12 then 12 else precision.toNat

/-- There is no result when the fuel runs out or an exception is thrown. -/
def hashFromCoordinates (fuel : Nat) (lon lat : F) (precision : Int) : Option (List Char) :=
  let s : Progress F := start
  if lon < s.lonMin ∨ s.lonMax < lon then some []
  else if lat < s.latMin ∨ s.latMax < lat then some []
  else loop lon lat (effective precision) fuel s

end

/-! ## Characters and bits -/

/-- The number that the bits stand for, the highest first. -/
def ofBits (bits : List Bool) : Nat := bits.foldl (fun n bit => 2 * n + bit.toNat) 0

/-- The five bits of a character. -/
def charBits (c : Char) : List Bool :=
  let i := base32.idxOf c
  [i / 16 % 2 = 1, i / 8 % 2 = 1, i / 4 % 2 = 1, i / 2 % 2 = 1, i % 2 = 1]

/-- The bits of a hash. -/
def hashBits (hash : List Char) : List Bool := hash.flatMap charBits

/-- The character of five bits. -/
def letter (bits : List Bool) : Char := base32.getD (ofBits bits) '0'

/-- A character for every five bits. -/
def letters : List Bool → List Char
  | a :: b :: c :: d :: e :: rest => letter [a, b, c, d, e] :: letters rest
  | _ => []

theorem charBits_letter (a b c d e : Bool) :
    charBits (letter [a, b, c, d, e]) = [a, b, c, d, e] := by
  revert a b c d e
  decide +kernel

theorem letter_mem (a b c d e : Bool) : letter [a, b, c, d, e] ∈ base32 := by
  revert a b c d e
  decide +kernel

theorem letters_five {five : List Bool} (h : five.length = 5) (rest : List Bool) :
    letters (five ++ rest) = letter five :: letters rest := by
  match five, h with
  | [_, _, _, _, _], _ => rfl

theorem letters_append (n : Nat) {front : List Bool} (h : front.length = 5 * n)
    (rest : List Bool) : letters (front ++ rest) = letters front ++ letters rest := by
  induction n generalizing front with
  | zero =>
    rw [List.eq_nil_of_length_eq_zero h]
    rfl
  | succ n ih =>
    match front, h with
    | a :: b :: c :: d :: e :: front, h =>
      have hrest : front.length = 5 * n := by
        simp only [List.length_cons] at h
        omega
      simp only [List.cons_append, letters, ih hrest]

/-- Whole characters keep all their bits. -/
theorem hashBits_letters (n : Nat) {bits : List Bool} (h : bits.length = 5 * n) :
    hashBits (letters bits) = bits ∧ (letters bits).length = n ∧
      ∀ c ∈ letters bits, c ∈ base32 := by
  induction n generalizing bits with
  | zero =>
    rw [List.eq_nil_of_length_eq_zero h]
    exact ⟨rfl, rfl, fun c hc => absurd hc List.not_mem_nil⟩
  | succ n ih =>
    match bits, h with
    | a :: b :: c :: d :: e :: rest, h =>
      have hrest : rest.length = 5 * n := by
        simp only [List.length_cons] at h
        omega
      obtain ⟨hbits, hlength, hmem⟩ := ih hrest
      refine ⟨?_, congrArg Nat.succ hlength, ?_⟩
      · rw [letters, hashBits, List.flatMap_cons, charBits_letter, ← hashBits, hbits]
        rfl
      · intro x hx
        obtain rfl | hx := List.mem_cons.mp hx
        · exact letter_mem a b c d e
        · exact hmem x hx

theorem ofBits_snoc (bits : List Bool) (bit : Bool) :
    ofBits (bits ++ [bit]) = 2 * ofBits bits + bit.toNat := by
  rw [ofBits, List.foldl_append]
  rfl

theorem ofBits_lt (bits : List Bool) : ofBits bits < 2 ^ bits.length := by
  induction bits using List.reverseRecOn with
  | nil => decide
  | append_singleton bits bit ih =>
    have hbit := Bool.toNat_le bit
    rw [ofBits_snoc, List.length_append, List.length_singleton, pow_succ]
    omega

/-! ## One round -/

variable {K : Type} [Field K]

theorem mid_eq [CharZero K] (low high : K) :
    (low + high) / (2.0 : K) = (⟨low, high⟩ : Bounds K).mid := by
  have htwo : (2.0 : K) = 2 := by norm_num
  rw [htwo]
  rfl

variable [LinearOrder K] [FloorRing K] [LongOverflow K]

/-- The side that is halved next, and the other one. -/
def sides (s : Progress K) : Bounds K × Bounds K :=
  if s.evenBit then (⟨s.lonMin, s.lonMax⟩, ⟨s.latMin, s.latMax⟩)
  else (⟨s.latMin, s.latMax⟩, ⟨s.lonMin, s.lonMax⟩)

/-- The coordinates of the two sides. -/
def point (lon lat : K) (s : Progress K) : K × K := if s.evenBit then (lon, lat) else (lat, lon)

/-- The next bit. -/
def nextBit (lon lat : K) (s : Progress K) : Bool := (sides s).1.mid ≤ (point lon lat s).1

/-- The state when a bit is taken and the sides have changed places. -/
def taken (lon lat : K) (s : Progress K) : Progress K :=
  let s' := if s.evenBit then bisectLon lon s else bisectLat lat s
  { s' with evenBit := !s'.evenBit, bit := s'.bit + 1 }

/-- The index with another bit. -/
def pushBit (idx : UInt8) (bit : Bool) : UInt8 := if bit then idx * 2 + 1 else idx * 2

theorem pushBit_toNat (idx : UInt8) (bit : Bool) :
    (pushBit idx bit).toNat = (2 * idx.toNat + bit.toNat) % 2 ^ 8 := by
  cases bit with
  | false =>
    show (idx * 2).toNat = _
    rw [UInt8.toNat_mul, Bool.toNat_false, Nat.add_zero, Nat.mul_comm]
    rfl
  | true =>
    show (idx * 2 + 1).toNat = _
    rw [UInt8.toNat_add, UInt8.toNat_mul, Bool.toNat_true, Nat.mod_add_mod, Nat.mul_comm]
    rfl

/-- The bits that do not make a character yet. -/
structure Pending (s : Progress K) (bits : List Bool) : Prop where
  short : bits.length < 5
  bit_eq : s.bit.toNat = bits.length
  idx_eq : s.idx.toNat = ofBits bits

theorem iterate_eq (lon lat : K) (s : Progress K) :
    iterate lon lat s =
      if (taken lon lat s).bit = 5 then
        base32[(taken lon lat s).idx.toNat]?.map fun c =>
          { taken lon lat s with geohash := (taken lon lat s).geohash ++ [c], bit := 0, idx := 0 }
      else some (taken lon lat s) := rfl

/-- What a round leaves of the sides and of the point. -/
def Turned (lon lat : K) (s s' : Progress K) : Prop :=
  sides s' = ((sides s).2, (sides s).1.half (nextBit lon lat s)) ∧
    point lon lat s' = (point lon lat s).swap

/-- The bits of as many rounds from here on. -/
def toCome (n : Nat) (lon lat : K) (s : Progress K) : List Bool :=
  encode n (sides s).1 (sides s).2 (point lon lat s).1 (point lon lat s).2

theorem toCome_succ (n : Nat) {lon lat : K} {s s' : Progress K} (h : Turned lon lat s s') :
    toCome (n + 1) lon lat s = nextBit lon lat s :: toCome n lon lat s' := by
  obtain ⟨hsides, hpoint⟩ := h
  rw [toCome, encode, toCome, hsides, hpoint]
  rfl

section

variable [CharZero K]

theorem bisectLon_eq (lon : K) (s : Progress K) :
    let i : Bounds K := ⟨s.lonMin, s.lonMax⟩
    bisectLon lon s = { s with
      idx := pushBit s.idx (i.mid ≤ lon)
      lonMin := (i.half (i.mid ≤ lon)).low
      lonMax := (i.half (i.mid ≤ lon)).high } := by
  intro i
  have hmid : (s.lonMin + s.lonMax) / (2.0 : K) = i.mid := mid_eq s.lonMin s.lonMax
  have hstep : bisectLon lon s =
      if i.mid ≤ lon then { s with idx := s.idx * 2 + 1, lonMin := i.mid }
      else { s with idx := s.idx * 2, lonMax := i.mid } := by
    rw [← hmid]
    rfl
  rw [hstep]
  by_cases h : i.mid ≤ lon
  · rw [if_pos h, decide_eq_true h]
    rfl
  · rw [if_neg h, decide_eq_false h]
    rfl

theorem bisectLat_eq (lat : K) (s : Progress K) :
    let i : Bounds K := ⟨s.latMin, s.latMax⟩
    bisectLat lat s = { s with
      idx := pushBit s.idx (i.mid ≤ lat)
      latMin := (i.half (i.mid ≤ lat)).low
      latMax := (i.half (i.mid ≤ lat)).high } := by
  intro i
  have hmid : (s.latMin + s.latMax) / (2.0 : K) = i.mid := mid_eq s.latMin s.latMax
  have hstep : bisectLat lat s =
      if i.mid ≤ lat then { s with idx := s.idx * 2 + 1, latMin := i.mid }
      else { s with idx := s.idx * 2, latMax := i.mid } := by
    rw [← hmid]
    rfl
  rw [hstep]
  by_cases h : i.mid ≤ lat
  · rw [if_pos h, decide_eq_true h]
    rfl
  · rw [if_neg h, decide_eq_false h]
    rfl

/-- A round takes the next bit, halves the side and lets the two sides change places. -/
theorem taken_spec (lon lat : K) (s : Progress K) :
    (taken lon lat s).geohash = s.geohash ∧ (taken lon lat s).bit = s.bit + 1 ∧
      (taken lon lat s).idx = pushBit s.idx (nextBit lon lat s) ∧
      sides (taken lon lat s) = ((sides s).2, (sides s).1.half (nextBit lon lat s)) ∧
      point lon lat (taken lon lat s) = (point lon lat s).swap := by
  cases heven : s.evenBit with
  | true =>
    simp only [taken, nextBit, sides, point, heven, if_true]
    rw [bisectLon_eq]
    simp [heven]
  | false =>
    simp only [taken, nextBit, sides, point, heven, Bool.false_eq_true, if_false]
    rw [bisectLat_eq]
    simp [heven]

/-- A bit that does not make a character. -/
theorem iterate_pending (lon lat : K) {s : Progress K} {bits : List Bool} (h : Pending s bits)
    (hshort : bits.length < 4) :
    ∃ s', iterate lon lat s = some s' ∧ Pending s' (bits ++ [nextBit lon lat s]) ∧
      s'.geohash = s.geohash ∧ Turned lon lat s s' := by
  obtain ⟨hhash, hbit, hidx, hsides, hpoint⟩ := taken_spec lon lat s
  have hcount : (taken lon lat s).bit.toNat = bits.length + 1 := by
    have hone : (1 : UInt8).toNat = 1 := rfl
    rw [hbit, UInt8.toNat_add, h.bit_eq, hone]
    exact Nat.mod_eq_of_lt (by omega)
  have hnot : (taken lon lat s).bit ≠ 5 := by
    intro hfive
    have hnat := congrArg UInt8.toNat hfive
    rw [hcount] at hnat
    have hfive' : (5 : UInt8).toNat = 5 := rfl
    omega
  refine ⟨taken lon lat s, ?_, ?_, hhash, hsides, hpoint⟩
  · rw [iterate_eq, if_neg hnot]
  · constructor
    · rw [List.length_append, List.length_singleton]
      omega
    · rw [hcount, List.length_append, List.length_singleton]
    · have hlt := ofBits_lt (bits ++ [nextBit lon lat s])
      have hpow : 2 ^ (bits ++ [nextBit lon lat s]).length ≤ 2 ^ 8 := by
        refine Nat.pow_le_pow_right (by decide) ?_
        rw [List.length_append, List.length_singleton]
        omega
      rw [hidx, pushBit_toNat, h.idx_eq, ← ofBits_snoc]
      exact Nat.mod_eq_of_lt (by omega)

/-- The fifth bit makes a character. -/
theorem iterate_full (lon lat : K) {s : Progress K} {bits : List Bool} (h : Pending s bits)
    (hfour : bits.length = 4) :
    ∃ s', iterate lon lat s = some s' ∧ Pending s' [] ∧
      s'.geohash = s.geohash ++ [letter (bits ++ [nextBit lon lat s])] ∧ Turned lon lat s s' := by
  obtain ⟨hhash, hbit, hidx, hsides, hpoint⟩ := taken_spec lon lat s
  have hfive : (taken lon lat s).bit = 5 := by
    apply UInt8.toNat_inj.mp
    rw [hbit, UInt8.toNat_add, h.bit_eq, hfour]
    rfl
  have hlt : ofBits (bits ++ [nextBit lon lat s]) < 32 := by
    have hpow := ofBits_lt (bits ++ [nextBit lon lat s])
    rwa [List.length_append, List.length_singleton, hfour] at hpow
  have hindex : (taken lon lat s).idx.toNat = ofBits (bits ++ [nextBit lon lat s]) := by
    rw [hidx, pushBit_toNat, h.idx_eq, ← ofBits_snoc]
    exact Nat.mod_eq_of_lt (by omega)
  have hchar : base32[ofBits (bits ++ [nextBit lon lat s])]? =
      some (letter (bits ++ [nextBit lon lat s])) := by
    have hlength : base32.length = 32 := by decide
    rw [letter, List.getD_eq_getElem?_getD, List.getElem?_eq_getElem (by omega)]
    rfl
  refine ⟨{ taken lon lat s with
    geohash := (taken lon lat s).geohash ++ [letter (bits ++ [nextBit lon lat s])]
    bit := 0
    idx := 0 }, ?_, ?_, ?_, ?_⟩
  · rw [iterate_eq, if_pos hfive, hindex, hchar]
    rfl
  · exact ⟨Nat.zero_lt_succ 4, rfl, rfl⟩
  · exact congrArg (· ++ _) hhash
  · exact ⟨hsides, hpoint⟩

/-! ## The loop -/

/-- The loop ends, and appends the characters of the bits that were pending and of those that
were still to come. -/
theorem loop_eq (lon lat : K) {precision n : Nat} {s : Progress K} {bits : List Bool}
    (h : Pending s bits) (hcount : n + bits.length + 5 * s.geohash.length = 5 * precision)
    {fuel : Nat} (hfuel : n < fuel) :
    loop lon lat precision fuel s =
      some (s.geohash ++ letters (bits ++ toCome n lon lat s)) := by
  induction n generalizing s bits fuel with
  | zero =>
    have hshort := h.short
    have hnil : bits = [] := List.eq_nil_of_length_eq_zero (by omega)
    have hdone : ¬ s.geohash.length < precision := by omega
    obtain ⟨fuel, rfl⟩ := Nat.exists_eq_add_of_lt hfuel
    rw [loop, if_neg hdone, hnil]
    exact congrArg some (List.append_nil _).symm
  | succ n ih =>
    have hshort := h.short
    have hmore : s.geohash.length < precision := by omega
    obtain ⟨fuel, rfl⟩ := Nat.exists_eq_succ_of_ne_zero (Nat.ne_zero_of_lt hfuel)
    have hnext : n < fuel := Nat.lt_of_succ_lt_succ hfuel
    have hlength : (bits ++ [nextBit lon lat s]).length = bits.length + 1 :=
      List.length_append
    rw [loop, if_pos hmore]
    by_cases hfour : bits.length = 4
    · obtain ⟨s', hstep, hpending, hhash, hturned⟩ :=
        iterate_full lon lat h hfour
      have hsize : s'.geohash.length = s.geohash.length + 1 := by
        rw [hhash, List.length_append, List.length_singleton]
      have hnone : ([] : List Bool).length = 0 := rfl
      have hrest := ih hpending (by rw [hnone, hsize]; omega) hnext
      rw [hstep, Option.bind_some, hrest, hhash, toCome_succ n hturned,
        List.append_cons bits _ (toCome n lon lat s'), letters_five (hlength.trans (by rw [hfour])),
        List.append_assoc]
      rfl
    · obtain ⟨s', hstep, hpending, hhash, hturned⟩ :=
        iterate_pending lon lat h (by omega)
      have hrest := ih hpending (by rw [hlength, hhash]; omega) hnext
      rw [hstep, Option.bind_some, hrest, hhash, toCome_succ n hturned,
        List.append_cons bits _ (toCome n lon lat s')]

end

/-! ## The hash -/

def longitudes : Bounds K := ⟨-180, 180⟩

def latitudes : Bounds K := ⟨-90, 90⟩

/-- The cell that the bits of a hash lead to. -/
def cell (hash : List Char) : Bounds K × Bounds K :=
  decode longitudes latitudes (hashBits hash)

/-- The hash of a point on earth has the characters of the first bits of its bisection. -/
theorem hashFromCoordinates_eq {lon lat : K} (hlon : -180 ≤ lon ∧ lon ≤ 180)
    (hlat : -90 ≤ lat ∧ lat ≤ 90) (precision : Int) {fuel : Nat}
    (hfuel : 5 * effective precision < fuel) :
    hashFromCoordinates fuel lon lat precision =
      some (letters (encode (5 * effective precision) longitudes latitudes lon lat)) := by
  have hpending : Pending (start : Progress K) [] := ⟨Nat.zero_lt_succ 4, rfl, rfl⟩
  have hbits : toCome (5 * effective precision) lon lat start =
      encode (5 * effective precision) longitudes latitudes lon lat := by
    have hlons : (⟨((-180 : Int) : K), (180.0 : K)⟩ : Bounds K) = longitudes := by
      rw [longitudes]
      congr 1 <;> norm_num
    have hlats : (⟨((-90 : Int) : K), (90.0 : K)⟩ : Bounds K) = latitudes := by
      rw [latitudes]
      congr 1 <;> norm_num
    rw [← hlons, ← hlats]
    rfl
  have hempty : (start : Progress K).geohash.length = 0 := rfl
  have hcount : 5 * effective precision + ([] : List Bool).length +
      5 * (start : Progress K).geohash.length = 5 * effective precision := by
    rw [hempty]
    rfl
  have hloop := loop_eq lon lat hpending hcount hfuel
  rw [hbits] at hloop
  have hlonIn : ¬ (lon < ((-180 : Int) : K) ∨ (180.0 : K) < lon) := by
    norm_num
    exact hlon
  have hlatIn : ¬ (lat < ((-90 : Int) : K) ∨ (90.0 : K) < lat) := by
    norm_num
    exact hlat
  have hstart : hashFromCoordinates fuel lon lat precision =
      loop lon lat (effective precision) fuel start := (if_neg hlonIn).trans (if_neg hlatIn)
  exact hstart.trans hloop

/-- The loop ends with as many characters of base 32 as were asked for. Their bits lead to a
cell that contains the point and whose sides are those of the earth halved in turn, and a hash
of fewer characters is the beginning of one with more. -/
theorem geohash_correct {lon lat : K} (hlon : -180 ≤ lon ∧ lon ≤ 180)
    (hlat : -90 ≤ lat ∧ lat ≤ 90) (precision : Int) :
    ∃ hash, (∀ fuel, 5 * effective precision < fuel →
        hashFromCoordinates fuel lon lat precision = some hash) ∧
      hash.length = effective precision ∧ (∀ c ∈ hash, c ∈ base32) ∧
      ((cell hash).1 : Bounds K).width = 360 / 2 ^ ((5 * effective precision + 1) / 2) ∧
      ((cell hash).2 : Bounds K).width = 180 / 2 ^ (5 * effective precision / 2) ∧
      (cell hash).1.Contains 180 lon ∧ (cell hash).2.Contains 90 lat ∧
      ∀ precision' : Int, effective precision ≤ effective precision' →
        ∃ hash', (∀ fuel, 5 * effective precision' < fuel →
          hashFromCoordinates fuel lon lat precision' = some hash') ∧ hash <+: hash' := by
  have hbits : (encode (5 * effective precision) longitudes latitudes lon lat).length =
      5 * effective precision := encode_length ..
  obtain ⟨hdecoded, hlength, hmem⟩ := hashBits_letters (effective precision) hbits
  have hcell : (cell (letters (encode (5 * effective precision) longitudes latitudes lon lat)) :
      Bounds K × Bounds K) = decode longitudes latitudes
        (encode (5 * effective precision) longitudes latitudes lon lat) := by
    rw [cell, hdecoded]
  have hwidths : (longitudes : Bounds K).width = 360 ∧ (latitudes : Bounds K).width = 180 := by
    constructor
    · show (180 : K) - -180 = 360
      norm_num
    · show (90 : K) - -90 = 180
      norm_num
  have htop : ∀ {top x : K}, x ≤ top → x < top ∨ x = top ∧ top = top := by
    intro top x hle
    obtain hlt | heq := hle.lt_or_eq
    · exact .inl hlt
    · exact .inr ⟨heq, rfl⟩
  have hlonIn : (longitudes : Bounds K).Contains 180 lon := ⟨hlon.1, htop hlon.2⟩
  have hlatIn : (latitudes : Bounds K).Contains 90 lat := ⟨hlat.1, htop hlat.2⟩
  obtain ⟨hwidth, hheight⟩ := decode_width (longitudes : Bounds K) latitudes
    (encode (5 * effective precision) longitudes latitudes lon lat)
  obtain ⟨hcontains, hcontains'⟩ :=
    decode_encode_contains (5 * effective precision) hlonIn hlatIn
  rw [hbits, hwidths.1] at hwidth
  rw [hbits, hwidths.2] at hheight
  rw [← hcell] at hwidth hheight hcontains hcontains'
  refine ⟨letters (encode (5 * effective precision) longitudes latitudes lon lat),
    fun fuel hfuel => hashFromCoordinates_eq hlon hlat precision hfuel, hlength, hmem, hwidth,
    hheight, hcontains, hcontains', ?_⟩
  intro precision' hle
  refine ⟨letters (encode (5 * effective precision') longitudes latitudes lon lat),
    fun fuel hfuel => hashFromCoordinates_eq hlon hlat precision' hfuel, ?_⟩
  obtain ⟨more, hmore⟩ := encode_extends (Nat.mul_le_mul_left 5 hle) longitudes latitudes lon lat
  rw [hmore, letters_append (effective precision) hbits]
  exact List.prefix_append _ _

/-- The characters of a point in the north-east. -/
theorem geohash_correct_three :
    ∃ hash : List Char, hash.length = 3 ∧
      (∀ fuel, 15 < fuel → hashFromCoordinates fuel (8 : ℚ) 50 3 = some hash) ∧
      (cell hash : Bounds ℚ × Bounds ℚ).1.Contains 180 8 := by
  have hlon : (-180 : ℚ) ≤ 8 ∧ (8 : ℚ) ≤ 180 := by norm_num
  have hlat : (-90 : ℚ) ≤ 50 ∧ (50 : ℚ) ≤ 90 := by norm_num
  obtain ⟨hash, hreturns, hlength, -, -, -, hcontains, -⟩ := geohash_correct hlon hlat 3
  exact ⟨hash, hlength, hreturns, hcontains⟩

end MuonDetector.Utility.GeoHash
