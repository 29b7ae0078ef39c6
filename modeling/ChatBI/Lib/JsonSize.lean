import ChatBI.Lib.JsonDump
import ChatBI.Lib.Utf8

/-!
# The size of JSON texts

The bytes of a document in the compact form, part by part.
-/

namespace ChatBI.Lib

namespace JsonDoc

/-- The bytes of a character inside a string. -/
def charBytes (c : Char) : Nat := Utf8.size (escapeChar c)

/-- The bytes of a text between its quotes. -/
def textBytes (text : List Char) : Nat := (text.map charBytes).sum

lemma textBytes_append (text more : List Char) :
    textBytes (text ++ more) = textBytes text + textBytes more := by
  simp [textBytes]

lemma size_flatMap_escapeChar (text : List Char) :
    Utf8.size (text.flatMap escapeChar) = textBytes text := by
  induction text with
  | nil => rfl
  | cons c text ih =>
    rw [List.flatMap_cons, Utf8.size_append, ih]
    rfl

lemma size_dumpString (text : List Char) : Utf8.size (dumpString text) = textBytes text + 2 := by
  have hquote : Char.utf8Size '"' = 1 := by decide
  rw [dumpString, List.cons_append, Utf8.size_cons, Utf8.size_append, size_flatMap_escapeChar,
    Utf8.size_cons, Utf8.size_nil, hquote]
  omega

lemma size_dumpItems (items : List JsonDoc) :
    Utf8.size (dumpItems items) = (items.map fun v => Utf8.size (dumps v)).sum +
      (items.length - 1) := by
  have hcomma : Char.utf8Size ',' = 1 := by decide
  induction items with
  | nil => rfl
  | cons v items ih =>
    cases items with
    | nil =>
      rw [dumpItems]
      simp
    | cons w items =>
      rw [dumpItems, Utf8.size_append, Utf8.size_cons, ih, hcomma]
      simp only [List.map_cons, List.sum_cons, List.length_cons]
      omega
      exact List.cons_ne_nil w items

/-- The bytes of a member. -/
def memberBytes (m : String × JsonDoc) : Nat :=
  textBytes m.1.toList + 3 + Utf8.size (dumps m.2)

lemma size_dumpMembers (members : List (String × JsonDoc)) :
    Utf8.size (dumpMembers members) = (members.map memberBytes).sum + (members.length - 1) := by
  have hcomma : Char.utf8Size ',' = 1 := by decide
  have hcolon : Char.utf8Size ':' = 1 := by decide
  induction members with
  | nil => rfl
  | cons m members ih =>
    obtain ⟨k, v⟩ := m
    cases members with
    | nil =>
      rw [dumpMembers, Utf8.size_append, Utf8.size_cons, size_dumpString, hcolon]
      simp only [List.map_cons, List.map_nil, List.sum_cons, List.sum_nil, List.length_cons,
        List.length_nil, memberBytes]
      omega
    | cons m' members =>
      rw [dumpMembers, Utf8.size_append, Utf8.size_append, Utf8.size_cons, Utf8.size_cons, ih,
        size_dumpString, hcolon, hcomma]
      simp only [List.map_cons, List.sum_cons, List.length_cons, memberBytes]
      omega
      exact List.cons_ne_nil m' members

lemma size_dumps_str (s : String) : Utf8.size (dumps (.str s)) = textBytes s.toList + 2 := by
  rw [dumps, size_dumpString]

lemma size_dumps_arr (items : List JsonDoc) :
    Utf8.size (dumps (.arr items)) =
      (items.map fun v => Utf8.size (dumps v)).sum + (items.length - 1) + 2 := by
  have hopen : Char.utf8Size '[' = 1 := by decide
  have hclose : Char.utf8Size ']' = 1 := by decide
  rw [dumps, List.cons_append, Utf8.size_cons, Utf8.size_append, Utf8.size_cons, Utf8.size_nil,
    size_dumpItems, hopen, hclose]
  omega

lemma size_dumps_obj (members : List (String × JsonDoc)) :
    Utf8.size (dumps (.obj members)) = (members.map memberBytes).sum + (members.length - 1) + 2 := by
  have hopen : Char.utf8Size '{' = 1 := by decide
  have hclose : Char.utf8Size '}' = 1 := by decide
  rw [dumps, List.cons_append, Utf8.size_cons, Utf8.size_append, Utf8.size_cons, Utf8.size_nil,
    size_dumpMembers, hopen, hclose]
  omega

end JsonDoc

end ChatBI.Lib
