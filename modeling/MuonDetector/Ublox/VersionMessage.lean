import MuonDetector.Ublox.ReadBounds
import Mathlib.Data.List.Infix

/-!
# The texts of a version message

The scan over a version message goes from one NUL to the next one, whatever field it stands
in. So it sees the texts between the NULs of the whole payload, and keeps what the last one
with `PROTVER` in it says.
-/

namespace MuonDetector.Ublox.VersionMessage

open MuonDetector.Library MuonDetector.Library.Reader MuonDetector.Library.Texts
open MuonDetector.Ublox.Events MuonDetector.Ublox.MessageProcessor
open MuonDetector.Ublox.ReadBounds

/-- The text after `PROTVER`, without leading non-digits and without trailing blanks and
other characters that show nothing. -/
def remainder (text : List UInt8) : List UInt8 :=
  ((text.drop 7).dropWhile fun ch => !isDigit ch).rdropWhile fun ch => ch = 0x20 || !isGraph ch

/-- The texts between the NULs of a payload that have `PROTVER` in them. -/
def mentioning (payload : List UInt8) : List (List UInt8) :=
  (payload.splitOn 0).filter fun text => decide (protver <:+: text)

/-- A payload of the documented form. What stands behind the NUL of a version is free. -/
structure VersionPayload where
  swVersion : List UInt8
  swRest : List UInt8
  hwVersion : List UInt8
  hwRest : List UInt8
  extensions : List (List UInt8)
  swVersion_text : 0 ∉ swVersion
  swVersion_size : swVersion.length + 1 + swRest.length = 30
  hwVersion_text : 0 ∉ hwVersion
  hwVersion_size : hwVersion.length + 1 + hwRest.length = 10
  extension_text : ∀ text ∈ extensions, text ≠ [] ∧ 0 ∉ text ∧ text.length < 30

/-- An extension takes thirty bytes. -/
def padded (text : List UInt8) : List UInt8 := text ++ List.replicate (30 - text.length) 0

def VersionPayload.bytes (p : VersionPayload) : List UInt8 :=
  p.swVersion ++ 0 :: (p.swRest ++ (p.hwVersion ++ 0 :: (p.hwRest ++ p.extensions.flatMap padded)))

/-! ## What one text leaves -/

def kept (text : List UInt8) : Option (List UInt8) :=
  if protver <:+: text then some (remainder text) else none

theorem protOf_eq (extension : List UInt8) :
    protOf extension = kept (extension.dropWhile fun ch => ch = 0) := by
  have hany : ∀ s : List UInt8,
      (s.tails.any fun t => protver.isPrefixOf t) = true ↔ protver <:+: s := by
    intro s
    simp only [List.any_eq_true, List.mem_tails, List.isPrefixOf_iff_prefix,
      List.infix_iff_prefix_suffix, and_comm]
  unfold protOf kept
  simp only [hany]
  rfl

theorem remainder_append_nul {text : List UInt8} (h : 7 ≤ text.length) :
    remainder (text ++ [0]) = remainder text := by
  have hblank : ∀ ch ∈ [(0 : UInt8)], (decide (ch = 0x20) || !isGraph ch) = true := by
    decide +kernel
  unfold remainder
  rw [List.drop_append_of_le_length h, List.dropWhile_append]
  by_cases hdigit : (text.drop 7).dropWhile (fun ch => !isDigit ch) = []
  · rw [hdigit]
    rfl
  · rw [if_neg (by simpa using hdigit)]
    exact rdropWhile_append hblank

/-- The NUL at the end of a text changes nothing. -/
theorem kept_append_nul (text : List UInt8) : kept (text ++ [0]) = kept text := by
  have hwithin : protver <:+: text ++ [0] ↔ protver <:+: text := by
    rw [List.infix_concat_iff, or_iff_right]
    intro hsuffix
    rcases List.suffix_concat_iff.mp hsuffix with h | ⟨t, h, -⟩
    · cases h
    · have hlast := congrArg List.getLast? h
      rw [List.getLast?_concat] at hlast
      cases hlast
  unfold kept
  by_cases h : protver <:+: text
  · rw [if_pos h, if_pos (hwithin.mpr h), remainder_append_nul h.length_le]
  · rw [if_neg h, if_neg fun h' => h (hwithin.mp h')]

/-- The NULs around a text change nothing. -/
theorem protOf_text (lead : List UInt8) {text trail : List UInt8} (hlead : ∀ ch ∈ lead, ch = 0)
    (htext : 0 ∉ text) (htrail : trail = [] ∨ trail = [0]) :
    protOf (lead ++ text ++ trail) = kept text := by
  have hkept : kept (text ++ trail) = kept text := by
    rcases htrail with rfl | rfl
    · rw [List.append_nil]
    · exact kept_append_nul text
  rw [protOf_eq, List.append_assoc, List.dropWhile_append_of_pos (by simpa using hlead)]
  cases text with
  | nil =>
    rcases htrail with rfl | rfl
    · rfl
    · rfl
  | cons ch text =>
    have hch : ch ≠ 0 := fun h => htext (h ▸ List.mem_cons_self)
    rw [List.cons_append, List.dropWhile_cons_of_neg (by simpa using hch), ← List.cons_append]
    exact hkept

/-! ## The scan -/

/-- A turn at a place with a NUL behind it takes the bytes up to this NUL and goes on there. -/
theorem scanTurn_found {before rest after : List UInt8} {ch : UInt8} (hrest : 0 ∉ rest)
    (hsize : (before ++ (ch :: rest ++ 0 :: after)).length ≤ npos) (prot : List UInt8) :
    Gives (before ++ (ch :: rest ++ 0 :: after)) (scanTurn before.length prot)
      ((protOf (ch :: rest ++ [0])).getD prot, some (before.length + (rest.length + 1))) := by
  have hfind : Gives (before ++ (ch :: rest ++ 0 :: after)) (find 0 (before.length + 1))
      (some (before.length + (rest.length + 1))) := by
    have h := Gives.find_some (before ++ [ch]) after hrest
    rw [List.length_append, List.length_singleton, List.append_assoc, Nat.add_assoc,
      Nat.add_comm 1 rest.length] at h
    exact h
  have hcount : (position (some (before.length + (rest.length + 1))) + 2 ^ 64 - before.length + 1) %
      2 ^ 64 = rest.length + 2 := by
    simp only [List.length_append, List.length_cons, npos] at hsize
    simp only [position, Option.getD_some]
    omega
  have hsubstr := Gives.substr before (ch :: rest ++ 0 :: after) (rest.length + 2)
  have htake : (ch :: rest ++ 0 :: after).take (rest.length + 2) = ch :: rest ++ [0] := by
    rw [List.take_append]
    simp
  rw [htake] at hsubstr
  refine hfind.bind ?_
  rw [hcount]
  exact hsubstr.bind (hfind.bind (Gives.pure _ _))

/-- A turn with no NUL behind it takes the rest of the payload. At the front of a payload
this fails: there the count of the characters is zero. -/
theorem scanTurn_last {before rest : List UInt8} {ch : UInt8} (hrest : 0 ∉ rest)
    (hbefore : before ≠ []) (hsize : (before ++ ch :: rest).length ≤ npos)
    (prot : List UInt8) :
    Gives (before ++ ch :: rest) (scanTurn before.length prot)
      ((protOf (ch :: rest)).getD prot, none) := by
  have hfind : Gives (before ++ ch :: rest) (find 0 (before.length + 1)) none := by
    have h := Gives.find_none (before ++ [ch]) hrest
    rw [List.length_append, List.length_singleton, List.append_assoc] at h
    exact h
  have hpos := List.length_pos_iff.mpr hbefore
  have hcount : (ch :: rest).length ≤
      (position none + 2 ^ 64 - before.length + 1) % 2 ^ 64 := by
    simp only [List.length_append, List.length_cons, npos] at hsize
    simp only [position, Option.getD_none, npos, List.length_cons]
    omega
  have hsubstr := Gives.substr before (ch :: rest)
    ((position none + 2 ^ 64 - before.length + 1) % 2 ^ 64)
  rw [List.take_of_length_le hcount] at hsubstr
  exact hfind.bind (hsubstr.bind (hfind.bind (Gives.pure _ _)))

/-- The version after the turns for these texts. -/
def scanned (prot : List UInt8) (texts : List (List UInt8)) : List UInt8 :=
  texts.foldl (fun prot text => (kept text).getD prot) prot

/-- The scan from a place on goes over the texts from there, one in a turn. -/
theorem scanExtensions_texts (before : List UInt8) {rest text : List UInt8} {ch : UInt8}
    {texts : List (List UInt8)} (hchunk : ch :: rest = text ∨ ch :: rest = 0 :: text)
    (hfree : ∀ t ∈ text :: texts, 0 ∉ t) (hnext : before ≠ [] ∨ texts ≠ [])
    (hsize : (before ++ (ch :: rest ++ texts.flatMap fun t => 0 :: t)).length ≤ npos)
    (prot : List UInt8) :
    Gives (before ++ (ch :: rest ++ texts.flatMap fun t => 0 :: t))
      (fun buf => scanExtensions buf before.length prot) (scanned prot (text :: texts)) := by
  have htext : 0 ∉ text := hfree text List.mem_cons_self
  have hrest : 0 ∉ rest := by
    rcases hchunk with rfl | h
    · exact fun hmem => htext (List.mem_cons_of_mem _ hmem)
    · rwa [(List.cons.inj h).2]
  have hprot : ∀ trail, trail = [] ∨ trail = [0] → protOf (ch :: rest ++ trail) = kept text := by
    intro trail htrail
    rcases hchunk with h | h
    · rw [h]
      exact protOf_text [] (by simp) htext htrail
    · rw [h]
      exact protOf_text [0] (by simp) htext htrail
  induction texts generalizing before ch rest text prot with
  | nil =>
    have hbefore := hnext.resolve_right fun h => h rfl
    simp only [List.flatMap_nil, List.append_nil] at hsize ⊢
    have hlt : before.length < (before ++ ch :: rest).length := by simp
    have hturn := scanTurn_last hrest hbefore hsize prot
    have hkept := hprot [] (Or.inl rfl)
    rw [List.append_nil] at hkept
    show (scanExtensions _ _ _).1 = _
    rw [scanExtensions_turn hlt]
    rw [hkept] at hturn
    exact hturn.bind (Gives.pure _ _)
  | cons u us ih =>
    simp only [List.flatMap_cons, List.cons_append] at hsize ⊢
    have hlt : before.length <
        (before ++ ch :: (rest ++ 0 :: (u ++ us.flatMap fun t => 0 :: t))).length := by
      rw [List.length_append, List.length_cons]
      omega
    have hturn := scanTurn_found hrest hsize prot
    rw [hprot [0] (Or.inr rfl)] at hturn
    have hassoc : before ++ ch :: (rest ++ 0 :: (u ++ us.flatMap fun t => 0 :: t)) =
        (before ++ ch :: rest) ++ (0 :: u ++ us.flatMap fun t => 0 :: t) := by
      rw [List.append_assoc]
      rfl
    have hplace : (before ++ ch :: rest).length = before.length + (rest.length + 1) := by
      rw [List.length_append, List.length_cons]
    have hu : 0 ∉ u := hfree u (by simp)
    have hafter : Gives ((before ++ ch :: rest) ++ (0 :: u ++ us.flatMap fun t => 0 :: t))
        (fun buf => scanExtensions buf (before ++ ch :: rest).length ((kept text).getD prot))
        (scanned ((kept text).getD prot) (u :: us)) := by
      refine ih _ (Or.inr rfl) (fun t ht => hfree t (List.mem_cons_of_mem _ ht))
        (Or.inl (by simp)) (by rwa [← hassoc]) _ hu hu ?_
      intro trail htrail
      exact protOf_text [0] (by simp) hu htrail
    rw [← hassoc, hplace] at hafter
    show (scanExtensions _ _ _).1 = _
    rw [scanExtensions_turn hlt]
    exact hturn.bind hafter

/-- The last text with `PROTVER` in it decides. -/
theorem scanned_eq (prot : List UInt8) (texts : List (List UInt8)) :
    scanned prot texts =
      (texts.filter fun t => decide (protver <:+: t)).getLast?.elim prot remainder := by
  induction texts using List.reverseRecOn with
  | nil => rfl
  | append_singleton texts text ih =>
    have hstep : scanned prot (texts ++ [text]) = (kept text).getD (scanned prot texts) := by
      rw [scanned, List.foldl_append]
      rfl
    rw [hstep, List.filter_append, ih, kept]
    by_cases h : protver <:+: text
    · rw [if_pos h, List.filter_singleton, decide_eq_true h, cond_true, List.getLast?_concat]
      rfl
    · rw [if_neg h, List.filter_singleton, decide_eq_false h, cond_false, List.append_nil]
      rfl

/-- The scan of a payload with two NULs or more sees all its texts. -/
theorem scanExtensions_payload {payload : List UInt8} (hsize : payload.length ≤ npos)
    (htexts : 3 ≤ (payload.splitOn 0).length) :
    Gives payload (fun buf => scanExtensions buf 0 [])
      ((mentioning payload).getLast?.elim [] remainder) := by
  obtain ⟨text, texts, hsplit, hpayload, hfree⟩ := splitOn_parts 0 payload
  have hscanned : (mentioning payload).getLast?.elim [] remainder =
      scanned [] (text :: texts) := by
    rw [scanned_eq, ← hsplit]
    rfl
  rw [hsplit, List.length_cons] at htexts
  rw [hscanned]
  cases text with
  | cons ch rest =>
    have hne : texts ≠ [] := by
      rintro rfl
      simp at htexts
    subst hpayload
    exact scanExtensions_texts [] (Or.inl rfl) hfree (Or.inr hne) hsize []
  | nil =>
    -- the first turn skips the NUL in front and takes the second text
    obtain ⟨u, us, rfl⟩ : ∃ u us, texts = u :: us := by
      cases texts with
      | nil => simp at htexts
      | cons u us => exact ⟨u, us, rfl⟩
    have hne : us ≠ [] := by
      rintro rfl
      simp at htexts
    subst hpayload
    exact scanExtensions_texts [] (Or.inr rfl)
      (fun t ht => hfree t (List.mem_cons_of_mem _ ht)) (Or.inr hne) hsize []

/-! ## The two versions -/

theorem gives_textFrom (before : List UInt8) {text : List UInt8} (after : List UInt8) {left : Nat}
    (htext : 0 ∉ text) (hleft : text.length ≤ left) :
    Gives (before ++ (text ++ 0 :: after)) (textFrom before.length left) text := by
  induction text generalizing before left with
  | nil =>
    have hread : Gives (before ++ ([] ++ 0 :: after)) (index 0 before.length) (0 : UInt8) := by
      simp [Gives, index]
    cases left with
    | zero => exact hread.bind (Gives.pure _ _)
    | succ left => exact hread.bind (Gives.pure _ _)
  | cons ch text ih =>
    have hread : Gives (before ++ (ch :: text ++ 0 :: after)) (index 0 before.length) ch := by
      simp [Gives, index]
    rw [List.mem_cons, not_or] at htext
    cases left with
    | zero => cases hleft
    | succ left =>
      have hrest := ih (before ++ [ch]) htext.2 (Nat.le_of_succ_le_succ hleft)
      rw [List.length_append, List.length_singleton, List.append_assoc] at hrest
      refine hread.bind ?_
      rw [if_neg fun h => htext.1 h.symm]
      exact hrest.bind (Gives.pure _ _)

section Payload

variable (p : VersionPayload)

theorem VersionPayload.length_texts : 3 ≤ (p.bytes.splitOn 0).length := by
  have hhw := List.splitOn_append_cons_self (a := (0 : UInt8)) (p.swRest ++ p.hwVersion)
    (p.hwRest ++ p.extensions.flatMap padded)
  have hleft := List.length_pos_iff.mpr (List.splitOn_ne_nil (0 : UInt8) (p.swRest ++ p.hwVersion))
  have hright := List.length_pos_iff.mpr
    (List.splitOn_ne_nil (0 : UInt8) (p.hwRest ++ p.extensions.flatMap padded))
  rw [VersionPayload.bytes, List.splitOn_append_cons_self_of_not_mem p.swVersion_text,
    ← List.append_assoc, hhw, List.length_cons, List.length_append]
  omega

/-- What the decoder makes of a payload. -/
theorem gives_ubxMonVer (hsize : p.bytes.length ≤ npos) :
    Gives p.bytes ubxMonVer
      { hwString := p.hwVersion, swString := p.swVersion,
        prot := (mentioning p.bytes).getLast?.elim [] remainder } := by
  have hsw : Gives p.bytes (textFrom 0 30) p.swVersion := by
    have hlen := p.swVersion_size
    exact gives_textFrom [] _ p.swVersion_text (by omega)
  have hhw : Gives p.bytes (textFrom 30 10) p.hwVersion := by
    have hlen : p.hwVersion.length ≤ 10 := by
      have hsize := p.hwVersion_size
      omega
    have h := gives_textFrom (p.swVersion ++ 0 :: p.swRest)
      (p.hwRest ++ p.extensions.flatMap padded) p.hwVersion_text hlen
    have hbefore : (p.swVersion ++ 0 :: p.swRest).length = 30 := by
      rw [List.length_append, List.length_cons, ← p.swVersion_size]
      omega
    rwa [hbefore, List.append_assoc] at h
  have hprot := scanExtensions_payload hsize p.length_texts
  exact hsw.bind (hhw.bind ((Gives.size _).bind ((Gives.bound _ _).bind
    (hprot.bind (Gives.pure _ _)))))

/-! ## The texts of a payload -/

theorem mentioning_nuls (n : Nat) (after : List UInt8) :
    mentioning (List.replicate n 0 ++ after) = mentioning after := by
  induction n with
  | zero => rfl
  | succ n ih =>
    have hfirst : ([] ++ 0 :: (List.replicate n 0 ++ after)).splitOn 0 =
        [] :: (List.replicate n 0 ++ after).splitOn (0 : UInt8) :=
      List.splitOn_append_cons_self_of_not_mem List.not_mem_nil _
    rw [← ih, List.replicate_succ, List.cons_append, mentioning, ← List.nil_append (0 :: _), hfirst]
    rfl

theorem mentioning_text {text : List UInt8} (htext : 0 ∉ text) (n : Nat) (after : List UInt8) :
    mentioning (text ++ 0 :: (List.replicate n 0 ++ after)) =
      [text].filter (fun t => decide (protver <:+: t)) ++ mentioning after := by
  rw [mentioning, List.splitOn_append_cons_self_of_not_mem htext, ← List.singleton_append,
    List.filter_append, ← mentioning, mentioning_nuls]

/-- Where the versions are filled up with NULs too, the texts are the versions and the
extensions. -/
theorem mentioning_padded (hrest : ∀ ch ∈ p.swRest ++ p.hwRest, ch = 0) :
    mentioning p.bytes = (p.swVersion :: p.hwVersion :: p.extensions).filter
      fun text => decide (protver <:+: text) := by
  have hextensions : ∀ texts : List (List UInt8),
      (∀ text ∈ texts, text ≠ [] ∧ 0 ∉ text ∧ text.length < 30) →
      mentioning (texts.flatMap padded) = texts.filter fun text => decide (protver <:+: text) := by
    intro texts htexts
    induction texts with
    | nil => rfl
    | cons text texts ih =>
      obtain ⟨-, hfree, hlen⟩ := htexts text List.mem_cons_self
      have hpad : 30 - text.length = (29 - text.length) + 1 := by omega
      rw [List.flatMap_cons, padded, hpad, List.replicate_succ, List.append_assoc,
        List.cons_append, mentioning_text hfree,
        ih fun t ht => htexts t (List.mem_cons_of_mem _ ht), ← List.filter_append,
        List.singleton_append]
  have hsw : p.swRest = List.replicate p.swRest.length 0 :=
    List.eq_replicate_of_mem fun ch hch => hrest ch (List.mem_append_left _ hch)
  have hhw : p.hwRest = List.replicate p.hwRest.length 0 :=
    List.eq_replicate_of_mem fun ch hch => hrest ch (List.mem_append_right _ hch)
  rw [VersionPayload.bytes, hsw, hhw, mentioning_text p.swVersion_text,
    mentioning_text p.hwVersion_text, hextensions _ p.extension_text, ← List.filter_append,
    ← List.filter_append]
  rfl

end Payload

/-- **A version message gives its two versions and the version of the protocol.** The last
text with `PROTVER` says it, if `PROTVER` is at its front: with the versions filled up with
NULs that is a version or an extension. The scan comes to an end on every payload. -/
theorem ubxMonVer_texts :
    (∀ p : VersionPayload, p.bytes.length ≤ npos →
      ∃ prot,
        Gives p.bytes ubxMonVer
          { hwString := p.hwVersion, swString := p.swVersion, prot := prot } ∧
        ((∀ text ∈ (mentioning p.bytes).getLast?, protver <+: text) →
          prot = (mentioning p.bytes).getLast?.elim [] remainder) ∧
        ((∀ ch ∈ p.swRest ++ p.hwRest, ch = 0) →
          mentioning p.bytes = (p.swVersion :: p.hwVersion :: p.extensions).filter
            fun text => decide (protver <:+: text))) ∧
    ∀ payload : List UInt8, 40 ≤ payload.length →
      ∃ prot, Gives payload (fun buf => scanExtensions buf 0 []) prot := by
  constructor
  · intro p hsize
    exact ⟨_, gives_ubxMonVer p hsize, fun _ => rfl, mentioning_padded p⟩
  · intro payload _
    exact Option.isSome_iff_exists.mp (inRange_scanExtensions 0 []).defined

/-- A payload with the hardware version `2`, filled up with NULs. -/
def samplePayload (swVersion : List UInt8) (extensions : List (List UInt8))
    (hsw : 0 ∉ swVersion) (hsize : swVersion.length < 30)
    (hext : ∀ text ∈ extensions, text ≠ [] ∧ 0 ∉ text ∧ text.length < 30) : VersionPayload where
  swVersion := swVersion
  swRest := List.replicate (29 - swVersion.length) 0
  hwVersion := [0x32]
  hwRest := List.replicate 8 0
  extensions := extensions
  swVersion_text := hsw
  swVersion_size := by
    rw [List.length_replicate]
    omega
  hwVersion_text := by decide
  hwVersion_size := rfl
  extension_text := hext

/-- With `PROTVER 18.00 ` as an extension. -/
theorem ubxMonVer_texts_padded :
    ∃ prot, prot = [0x31, 0x38, 0x2e, 0x30, 0x30] ∧
      Gives (samplePayload [0x31] [protver ++ [0x20, 0x31, 0x38, 0x2e, 0x30, 0x30, 0x20], [0x47]]
        (by decide) (by decide) (by decide)).bytes ubxMonVer
        { hwString := [0x32], swString := [0x31], prot := prot } := by
  obtain ⟨prot, hgives, hprot, -⟩ := ubxMonVer_texts.1
    (samplePayload [0x31] [protver ++ [0x20, 0x31, 0x38, 0x2e, 0x30, 0x30, 0x20], [0x47]]
      (by decide) (by decide) (by decide)) (by decide +kernel)
  refine ⟨prot, ?_, hgives⟩
  rw [hprot (by decide +kernel)]
  decide +kernel

/-- The version in the software version, an extension that ends in a character which shows
nothing, and `PROTVER` behind the first character of an extension: in the first and the
third no extension starts with `PROTVER`, and in the second the text after it has the last
character too. -/
theorem prot_from_other_texts :
    (ubxMonVer (samplePayload (protver ++ [0x39]) [] (by decide) (by decide)
      (by decide)).bytes).1.map GpsVersion.prot = some [0x39] ∧
    (ubxMonVer (samplePayload [0x31] [protver ++ [0x39, 0x01]] (by decide) (by decide)
      (by decide)).bytes).1.map GpsVersion.prot = some [0x39] ∧
    (ubxMonVer (samplePayload [0x31] [0x58 :: protver ++ [0x39]] (by decide) (by decide)
      (by decide)).bytes).1.map GpsVersion.prot = some [0x39] := by
  refine ⟨?_, ?_, ?_⟩ <;>
  · rw [gives_ubxMonVer _ (by decide +kernel)]
    decide +kernel

end MuonDetector.Ublox.VersionMessage
