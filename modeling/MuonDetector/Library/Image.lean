import Mathlib.Data.List.Basic

/-!
# Fields in a byte image

Fields that do not overlap can be written to an image one after the other and read
back in any order, and the bytes that no field covers stay as they were.
-/

namespace MuonDetector.Library.Image

variable {n : Nat}

/-- The image with the bytes at `a`; what does not fit is left out. -/
def put (img : Vector UInt8 n) (a : Nat) (bytes : List UInt8) : Vector UInt8 n :=
  Vector.ofFn fun i => if h : a ≤ i.val ∧ i.val - a < bytes.length then bytes[i.val - a] else img[i]

/-- The `len` bytes at `a`. -/
def load (img : Vector UInt8 n) (a len : Nat) : List UInt8 :=
  (List.range len).map fun k => img[a + k]?.getD 0

/-- A field: its address and its bytes. -/
abbrev Field := Nat × List UInt8

def putAll (img : Vector UInt8 n) (fields : List Field) : Vector UInt8 n :=
  fields.foldl (fun img f => put img f.1 f.2) img

def Field.Covers (f : Field) (i : Nat) : Prop := f.1 ≤ i ∧ i < f.1 + f.2.length

/-- No byte belongs to both fields. -/
def Apart (f g : Field) : Prop := f.1 + f.2.length ≤ g.1 ∨ g.1 + g.2.length ≤ f.1

theorem Apart.not_covers {f g : Field} (h : Apart f g) {i : Nat} (hf : f.Covers i) :
    ¬ g.Covers i := by
  rintro ⟨hlo, hhi⟩
  obtain ⟨flo, fhi⟩ := hf
  rcases h with h | h <;> omega

theorem getElem_put_inside {img : Vector UInt8 n} {f : Field} {i : Nat} (hi : i < n)
    (h : f.Covers i) : f.2[i - f.1]? = some (put img f.1 f.2)[i] := by
  obtain ⟨hlo, hhi⟩ := h
  have hin : f.1 ≤ i ∧ i - f.1 < f.2.length := ⟨hlo, by omega⟩
  simp [put, hin]

theorem getElem_put_outside {img : Vector UInt8 n} {f : Field} {i : Nat} (hi : i < n)
    (h : ¬ f.Covers i) : (put img f.1 f.2)[i] = img[i] := by
  have hout : ¬ (f.1 ≤ i ∧ i - f.1 < f.2.length) := fun hin => h ⟨hin.1, by omega⟩
  simp only [put, Vector.getElem_ofFn, hout, dite_false]
  rfl

/-- **A byte that no field covers stays as it was.** -/
theorem getElem_putAll_outside {img : Vector UInt8 n} {fields : List Field} {i : Nat}
    (hi : i < n) (h : ∀ f ∈ fields, ¬ f.Covers i) : (putAll img fields)[i] = img[i] := by
  induction fields generalizing img with
  | nil => rfl
  | cons f fields ih =>
    rw [putAll, List.foldl_cons]
    exact (ih fun g hg => h g (List.mem_cons_of_mem f hg)).trans
      (getElem_put_outside hi (h f List.mem_cons_self))

/-- A covered byte is the field's own. -/
theorem getElem_putAll_inside {img : Vector UInt8 n} {fields : List Field}
    (hd : fields.Pairwise Apart) {f : Field} (hf : f ∈ fields) {i : Nat} (hi : i < n)
    (h : f.Covers i) : f.2[i - f.1]? = some (putAll img fields)[i] := by
  induction fields generalizing img with
  | nil => cases hf
  | cons g fields ih =>
    rw [List.pairwise_cons] at hd
    rw [putAll, List.foldl_cons]
    rcases List.mem_cons.mp hf with rfl | hrest
    · have hkept : (putAll (put img f.1 f.2) fields)[i] = (put img f.1 f.2)[i] :=
        getElem_putAll_outside hi fun g' hg' => (hd.1 g' hg').not_covers h
      exact (getElem_put_inside hi h).trans (congrArg some hkept.symm)
    · exact ih hd.2 hrest

/-- **Every field is read back.** -/
theorem load_putAll {img : Vector UInt8 n} {fields : List Field} (hd : fields.Pairwise Apart)
    {f : Field} (hf : f ∈ fields) (hfits : f.1 + f.2.length ≤ n) :
    load (putAll img fields) f.1 f.2.length = f.2 := by
  apply List.ext_getElem (by simp [load])
  intro k hk hk'
  have hin : f.1 + k < n := by omega
  have hcovers : f.Covers (f.1 + k) := ⟨by omega, by omega⟩
  have hbyte : f.2[f.1 + k - f.1]? = some (putAll img fields)[f.1 + k] :=
    getElem_putAll_inside hd hf hin hcovers
  rw [Nat.add_sub_cancel_left, List.getElem?_eq_getElem hk'] at hbyte
  simp only [load, List.getElem_map, List.getElem_range]
  rw [Vector.getElem?_eq_getElem hin, Option.getD_some]
  exact (Option.some.inj hbyte).symm

end MuonDetector.Library.Image
