import Mathlib.Data.List.DropRight
import Mathlib.Data.String.Basic
import Mathlib.Tactic.Lemma

/-!
# Python text operations
-/

namespace ChatBI.Lib

/-- `str.isspace` of one character. -/
def isSpace (c : Char) : Bool :=
  let n := c.toNat
  (9 ≤ n && n ≤ 13) || (28 ≤ n && n ≤ 32) || n = 0x85 || n = 0xA0 || n = 0x1680 ||
    (0x2000 ≤ n && n ≤ 0x200A) || n = 0x2028 || n = 0x2029 || n = 0x202F || n = 0x205F ||
    n = 0x3000

def stripChars (cs : List Char) : List Char :=
  ((cs.dropWhile isSpace).reverse.dropWhile isSpace).reverse

/-- `str.strip()`. -/
def strip (s : String) : String := String.ofList (stripChars s.toList)

/-- The parts of a text between a separator of `skip` further characters. -/
def splitFrom (sep : List Char) : Nat → List Char → List Char → List (List Char)
  | _, part, [] => [part.reverse]
  | skip + 1, part, _ :: cs => splitFrom sep skip part cs
  | 0, part, c :: cs =>
    if sep.isPrefixOf (c :: cs) then part.reverse :: splitFrom sep (sep.length - 1) [] cs
    else splitFrom sep 0 (c :: part) cs

/-- `s.split(sep)`. -/
def split (s sep : String) : List String := (splitFrom sep.toList 0 [] s.toList).map String.ofList

/-- Nothing remains to be stripped. -/
lemma stripChars_stripChars (cs : List Char) : stripChars (stripChars cs) = stripChars cs := by
  have hright : ∀ ds : List Char, stripChars ds = (ds.dropWhile isSpace).rdropWhile isSpace :=
    fun _ => rfl
  have hleft : (stripChars cs).dropWhile isSpace = stripChars cs := by
    rw [List.dropWhile_eq_self_iff]
    intro hl
    obtain ⟨rest, hrest⟩ : stripChars cs <+: cs.dropWhile isSpace := by
      rw [hright]
      exact List.rdropWhile_prefix _ _
    have hlength : 0 < (cs.dropWhile isSpace).length := by
      rw [← hrest, List.length_append]
      omega
    have hhead := List.dropWhile_eq_self_iff.mp (List.dropWhile_idempotent isSpace cs) hlength
    simp only [← hrest, List.getElem_append_left hl] at hhead
    exact hhead
  rw [hright (stripChars cs), hleft, hright cs, List.rdropWhile_idempotent]

lemma stripChars_of_forall {cs : List Char} (h : ∀ c ∈ cs, isSpace c = false) :
    stripChars cs = cs := by
  have hkept : ∀ ds : List Char, (∀ c ∈ ds, isSpace c = false) → ds.dropWhile isSpace = ds := by
    intro ds hds
    apply List.dropWhile_eq_self_iff.mpr
    intro hlength
    rw [hds _ (List.getElem_mem hlength)]
    exact Bool.false_ne_true
  unfold stripChars
  rw [hkept cs h, hkept cs.reverse fun c hc => h c (List.mem_reverse.mp hc), List.reverse_reverse]

lemma length_strip_le (s : String) : (strip s).length ≤ s.length := by
  have hsub : (stripChars s.toList).Sublist s.toList := by
    have hright := (List.dropWhile_sublist isSpace (l := (s.toList.dropWhile isSpace).reverse)).reverse
    rw [List.reverse_reverse] at hright
    exact hright.trans (List.dropWhile_sublist isSpace)
  rw [strip, String.length_ofList, ← String.length_toList]
  exact hsub.length_le

/-- A text with a character that is no space is not blank. -/
lemma strip_ne_empty {s : String} {c : Char} (hc : c ∈ s.toList) (hspace : isSpace c = false) :
    strip s ≠ "" := by
  intro h
  have hnil : stripChars s.toList = [] := by
    have hlist := congrArg String.toList h
    rw [strip, String.toList_ofList] at hlist
    exact hlist
  rw [stripChars, List.reverse_eq_nil_iff, List.dropWhile_eq_nil_iff] at hnil
  have hspaces : s.toList.dropWhile isSpace = [] := by
    by_contra hne
    have hhead := List.head_dropWhile_not isSpace hne
    have hall := hnil _ (List.mem_reverse.mpr (List.head_mem hne))
    rw [hhead] at hall
    cases hall
  rw [List.dropWhile_eq_nil_iff] at hspaces
  have hall := hspaces c hc
  rw [hspace] at hall
  cases hall

/-- The characters of the first of the joined texts are in what they are joined to. -/
lemma mem_intercalate_cons {sep first : String} {rest : List String} {c : Char}
    (hc : c ∈ first.toList) : c ∈ (sep.intercalate (first :: rest)).toList := by
  cases rest with
  | nil => rwa [String.intercalate_singleton]
  | cons second rest =>
    rw [String.intercalate_cons_of_ne_nil (List.cons_ne_nil _ _), String.toList_append,
      String.toList_append]
    exact List.mem_append_left _ (List.mem_append_left _ hc)

@[simp] lemma strip_strip (s : String) : strip (strip s) = strip s := by
  rw [strip, strip, String.toList_ofList, stripChars_stripChars]

/-- The letters of ASCII in lower case. -/
def lowered (s : String) : String := String.ofList (s.toList.map Char.toLower)

lemma toLower_toLower (c : Char) : c.toLower.toLower = c.toLower := by
  unfold Char.toLower
  split
  · rename_i h
    rw [dif_neg]
    intro h'
    simp only [UInt32.le_iff_toNat_le, UInt32.toNat_add] at h h'
    simp at h h'
    omega
  · rfl

lemma lowered_lowered (s : String) : lowered (lowered s) = lowered s := by
  have hchar : ∀ c : Char, (Char.toLower ∘ Char.toLower) c = Char.toLower c := toLower_toLower
  simp [lowered, funext hchar]

lemma lowered_append (s t : String) : lowered (s ++ t) = lowered s ++ lowered t := by
  simp [lowered]

end ChatBI.Lib
