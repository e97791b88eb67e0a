import MuonDetector.Credentials.ConfigFile

/-!
# The other lines of the config file

The tool tells its lines from the others by how they begin, and writes an empty line in
front of them that it does not take away again. What becomes of the other lines, of a
second store, and of a store that is cleared.
-/

namespace MuonDetector.Credentials.OtherLines

open MuonDetector.Library
open MuonDetector.Credentials.ConfigFile

/-! ## The property -/

/-- The line gives a value to this key and to no longer one. -/
def assigns (key line : Text) : Bool :=
  let rest := line.dropWhile Texts.isBlank
  let behind := (rest.drop key.length).dropWhile Texts.isBlank
  key.isPrefixOf rest && (behind.head? = some '=' || behind.head? = some ':')

/-- An assignment to one of the two keys, or the comment of the tool. -/
def isOwn (line : Text) : Bool :=
  assigns mqttUser line || assigns mqttPassword line || trimLeft line = comment

def otherLines (text : Text) : List Text := (configLines text).filter fun line => !isOwn line

/-- The file after a store whose writes succeed. -/
def stored (text username password : Text) : Text :=
  ((storeCredentialsInConfig {} (some text) username password).2).getD []

def cleared (text : Text) : Text := ((clearCredentialsFromConfig {} (some text)).2).getD []

structure KeepsOthers (text username password : Text) : Prop where
  stored : (otherLines text).Sublist (configLines (stored text username password))
  cleared : (otherLines text).Sublist (configLines (cleared text))

/-- What is claimed of a file and two credentials. -/
structure Lawful (text username password : Text) : Prop where
  keeps : KeepsOthers text username password
  once : stored (stored text username password) username password = stored text username password
  restores : (∀ line ∈ configLines text, isOwn line = false) →
    cleared (stored text username password) = text

/-! ## The lines afterwards -/

theorem configLines_stored (text username password : Text) :
    configLines (stored text username password) =
      keptLines text ++ addedLines username password := by
  obtain ⟨text', htext, hlines⟩ :=
    @readConfigLines_stored {} (some text) username password rfl
  obtain rfl := Option.some.inj htext
  exact hlines.trans (cutLines_all le_rfl)

theorem configLines_cleared (text : Text) : configLines (cleared text) = keptLines text := by
  obtain ⟨text', htext, hlines⟩ := @readConfigLines_cleared {} (some text) rfl
  obtain rfl := Option.some.inj htext
  exact hlines.trans (cutLines_all le_rfl)

theorem filter_keptLines (text : Text) :
    (keptLines text).filter (fun line => !isCredentialAssignment line) = keptLines text := by
  rw [keptLines, List.filter_filter]
  simp only [Bool.and_self]

theorem isCredentialAssignment_nil : isCredentialAssignment [] = false := by decide +kernel

theorem isCredentialAssignment_assignmentLine {key : Text} (hkey : IsKey key) (value : Text) :
    isCredentialAssignment (assignmentLine key value) = true := by
  rcases hkey with rfl | rfl <;> rfl

/-- Of the added lines the empty one stays. -/
theorem keptLines_stored (text username password : Text) :
    keptLines (stored text username password) = keptLines text ++ [[]] := by
  have hadded : (addedLines username password).filter (fun line => !isCredentialAssignment line) =
      [[]] := by
    have hcomment : isCredentialAssignment comment = true := by decide +kernel
    simp [addedLines, hcomment, isCredentialAssignment_nil,
      isCredentialAssignment_assignmentLine (.inl rfl),
      isCredentialAssignment_assignmentLine (.inr rfl)]
  rw [keptLines, configLines_stored, List.filter_append, filter_keptLines, hadded]

/-- Each store adds an empty line. -/
theorem stored_twice_ne (text username password : Text) :
    stored (stored text username password) username password ≠ stored text username password := by
  intro h
  have hlength := congrArg (fun t => (configLines t).length) h
  simp only [configLines_stored, keptLines_stored, List.length_append, List.length_singleton]
    at hlength
  omega

/-- The empty line of a store is still there when its credentials are cleared. -/
theorem cleared_stored_ne (text username password : Text) :
    cleared (stored text username password) ≠ text := by
  intro h
  have hlines : keptLines text ++ [[]] = configLines text := by
    rw [← keptLines_stored text username password, ← configLines_cleared, h]
  -- the kept lines with one line more would be the lines that the kept ones are chosen from
  have hlength := congrArg List.length
    (congrArg (List.filter fun line => !isCredentialAssignment line) hlines)
  rw [List.filter_append, filter_keptLines, List.length_append, ← keptLines] at hlength
  simp [isCredentialAssignment_nil] at hlength

/-! ## The lines that are dropped -/

/-- Where only its own lines begin as assignments, a clear keeps all the others. -/
theorem otherLines_sublist {text : Text}
    (h : ∀ line ∈ configLines text, isCredentialAssignment line = true → isOwn line = true) :
    (otherLines text).Sublist (keptLines text) := by
  have hothers : otherLines text = (keptLines text).filter fun line => !isOwn line := by
    rw [otherLines, keptLines, List.filter_filter]
    apply List.filter_congr
    intro line hline
    cases hown : isOwn line with
    | true => rfl
    | false =>
      cases hcredential : isCredentialAssignment line with
      | false => rfl
      | true =>
        rw [h line hline hcredential] at hown
        cases hown
  rw [hothers]
  exact List.filter_sublist

theorem keepsOthers_iff (text username password : Text) :
    KeepsOthers text username password ↔
      ∀ line ∈ configLines text, isCredentialAssignment line = true → isOwn line = true := by
  constructor
  · intro h line hline hcredential
    by_contra hown
    have hother : line ∈ otherLines text := List.mem_filter.mpr ⟨hline, by simpa using hown⟩
    have hkept := h.cleared.subset hother
    rw [configLines_cleared] at hkept
    have hnot := (List.mem_filter.mp hkept).2
    rw [hcredential] at hnot
    cases hnot
  · intro h
    have hsublist := otherLines_sublist h
    refine ⟨?_, ?_⟩
    · rw [configLines_stored]
      exact hsublist.trans (List.sublist_append_left _ _)
    · rw [configLines_cleared]
      exact hsublist

/-- **The file grows with every store.** Nothing that is stored is stored only once, and no
file comes back; the other lines stay exactly where none of them begins as an assignment
would. -/
theorem storage_never_lawful (text username password : Text) :
    ¬ Lawful text username password ∧
      stored (stored text username password) username password ≠
        stored text username password ∧
      cleared (stored text username password) ≠ text ∧
      (KeepsOthers text username password ↔
        ∀ line ∈ configLines text, isCredentialAssignment line = true → isOwn line = true) :=
  ⟨fun h => stored_twice_ne text username password h.once,
    stored_twice_ne text username password, cleared_stored_ne text username password,
    keepsOthers_iff text username password⟩

/-- Another setting is dropped, the second store adds a line, and the clear leaves one. -/
theorem other_setting_dropped :
    let text := "mqtt_user_group = 1\nlat = 2\n".toList
    configLines (cleared text) = ["lat = 2".toList] ∧
      stored (stored text [] []) [] [] ≠ stored text [] [] ∧
      cleared (stored "lat = 2\n".toList [] []) = "lat = 2\n\n".toList ∧
      ¬ Lawful text [] [] := by
  have htwice : stored (stored "mqtt_user_group = 1\nlat = 2\n".toList [] []) [] [] ≠
      stored "mqtt_user_group = 1\nlat = 2\n".toList [] [] := by decide +kernel
  exact ⟨by decide +kernel, htwice, by decide +kernel, fun h => htwice h.once⟩

end MuonDetector.Credentials.OtherLines
