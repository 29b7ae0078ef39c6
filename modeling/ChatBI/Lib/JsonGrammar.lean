import ChatBI.Lib.CodePoint
import Mathlib.Tactic.Lemma

/-!
# The grammar of JSON texts

The productions of RFC 8259 as relations between a text, what it stands for and what remains of
the text. Numbers keep their lexeme. Strings are those of Unicode scalar values: an escaped
surrogate occurs in a pair.
-/

namespace ChatBI.Lib

/-- What a JSON text stands for. -/
inductive JsonDoc where
  | null
  | bool (b : Bool)
  | number (lexeme : List CodePoint)
  | str (s : String)
  | arr (items : List JsonDoc)
  | obj (members : List (String × JsonDoc))

namespace JsonGrammar

def IsSpace (c : CodePoint) : Prop :=
  c = .scalar ' ' ∨ c = .scalar '\t' ∨ c = .scalar '\r' ∨ c = .scalar '\n'

/-- `ws`. -/
inductive Ws : List CodePoint → List CodePoint → Prop where
  | nil {l} : Ws l l
  | cons {c l r} (h : IsSpace c) (hl : Ws l r) : Ws (c :: l) r

/-- `1*DIGIT`. -/
def Digits (l : List CodePoint) : Prop := l ≠ [] ∧ ∀ c ∈ l, c.isDigit = true

/-- `int = zero / ( digit1-9 *DIGIT )`. -/
def IntegerPart (l : List CodePoint) : Prop :=
  l = [.scalar '0'] ∨ Digits l ∧ l.head? ≠ some (.scalar '0')

/-- `[ decimal-point 1*DIGIT ]`. -/
def FractionPart (l : List CodePoint) : Prop :=
  l = [] ∨ ∃ digits, l = .scalar '.' :: digits ∧ Digits digits

/-- `[ e [ minus / plus ] 1*DIGIT ]`. -/
def ExponentPart (l : List CodePoint) : Prop :=
  l = [] ∨ ∃ e sign digits, l = e :: (sign ++ digits) ∧ (e = .scalar 'e' ∨ e = .scalar 'E') ∧
    (sign = [] ∨ sign = [.scalar '+'] ∨ sign = [.scalar '-']) ∧ Digits digits

/-- `number = [ minus ] int [ frac ] [ exp ]`. -/
def Number (l : List CodePoint) : Prop :=
  ∃ minus integer fraction exponent, l = minus ++ integer ++ fraction ++ exponent ∧
    (minus = [] ∨ minus = [.scalar '-']) ∧ IntegerPart integer ∧ FractionPart fraction ∧
    ExponentPart exponent

/-- `%x22 / %x5C / %x2F / %x62 / %x66 / %x6E / %x72 / %x74` after a backslash. -/
inductive Escape : Char → Char → Prop where
  | quote : Escape '"' '"'
  | backslash : Escape '\\' '\\'
  | slash : Escape '/' '/'
  | backspace : Escape 'b' '\x08'
  | formFeed : Escape 'f' '\x0c'
  | lineFeed : Escape 'n' '\n'
  | carriageReturn : Escape 'r' '\r'
  | tab : Escape 't' '\t'

/-- `\uXXXX`, with the number of its four digits. -/
def Unicode (l : List CodePoint) (n : Nat) (rest : List CodePoint) : Prop :=
  ∃ c₁ c₂ c₃ c₄ n₁ n₂ n₃ n₄, l = .scalar '\\' :: .scalar 'u' :: c₁ :: c₂ :: c₃ :: c₄ :: rest ∧
    c₁.hexDigit? = some n₁ ∧ c₂.hexDigit? = some n₂ ∧ c₃.hexDigit? = some n₃ ∧
    c₄.hexDigit? = some n₄ ∧ n = hexValue [n₁, n₂, n₃, n₄]

/-- The characters of a string after its opening quotation mark, the closing one included. -/
inductive StringBody : List CodePoint → List Char → List CodePoint → Prop where
  | close {rest} : StringBody (.scalar '"' :: rest) [] rest
  | unescaped {c l cs rest} (hcontrol : 0x20 ≤ c.toNat) (hquote : c ≠ '"') (hslash : c ≠ '\\')
      (hl : StringBody l cs rest) : StringBody (.scalar c :: l) (c :: cs) rest
  | escaped {e c l cs rest} (he : Escape e c) (hl : StringBody l cs rest) :
      StringBody (.scalar '\\' :: .scalar e :: l) (c :: cs) rest
  | unicode {text n l cs rest} (hn : Unicode text n l) (hscalar : n < 0xD800 ∨ 0xDFFF < n)
      (hl : StringBody l cs rest) : StringBody text (Char.ofNat n :: cs) rest
  | pair {text high more low l cs rest} (hhigh : Unicode text high more)
      (hlow : Unicode more low l) (hh : 0xD800 ≤ high ∧ high ≤ 0xDBFF)
      (hl : 0xDC00 ≤ low ∧ low ≤ 0xDFFF) (hrest : StringBody l cs rest) :
      StringBody text
        (Char.ofNat (0x10000 + (high - 0xD800) * 1024 + (low - 0xDC00)) :: cs) rest

mutual

inductive Value : List CodePoint → JsonDoc → List CodePoint → Prop where
  | null {rest} : Value (CodePoint.ofString "null" ++ rest) .null rest
  | true {rest} : Value (CodePoint.ofString "true" ++ rest) (.bool true) rest
  | false {rest} : Value (CodePoint.ofString "false" ++ rest) (.bool false) rest
  | number {lexeme rest} (h : Number lexeme) : Value (lexeme ++ rest) (.number lexeme) rest
  | string {l cs rest} (h : StringBody l cs rest) :
      Value (.scalar '"' :: l) (.str (String.ofList cs)) rest
  | emptyArray {l rest} (h : Ws l (.scalar ']' :: rest)) : Value (.scalar '[' :: l) (.arr []) rest
  | array {l items rest} (h : Items l items rest) : Value (.scalar '[' :: l) (.arr items) rest
  | emptyObject {l rest} (h : Ws l (.scalar '}' :: rest)) :
      Value (.scalar '{' :: l) (.obj []) rest
  | object {l members rest} (h : Members l members rest) :
      Value (.scalar '{' :: l) (.obj members) rest

/-- The values of an array after its opening bracket or a comma. -/
inductive Items : List CodePoint → List JsonDoc → List CodePoint → Prop where
  | last {l l₁ v l₂ rest} (hl : Ws l l₁) (hv : Value l₁ v l₂) (hr : Ws l₂ (.scalar ']' :: rest)) :
      Items l [v] rest
  | cons {l l₁ v l₂ l₃ items rest} (hl : Ws l l₁) (hv : Value l₁ v l₂)
      (hr : Ws l₂ (.scalar ',' :: l₃)) (h : Items l₃ items rest) : Items l (v :: items) rest

/-- The members of an object after its opening brace or a comma. -/
inductive Members : List CodePoint → List (String × JsonDoc) → List CodePoint → Prop where
  | last {l l₁ k l₂ l₃ l₄ v l₅ rest} (hl : Ws l (.scalar '"' :: l₁)) (hk : StringBody l₁ k l₂)
      (hc : Ws l₂ (.scalar ':' :: l₃)) (hs : Ws l₃ l₄) (hv : Value l₄ v l₅)
      (hr : Ws l₅ (.scalar '}' :: rest)) : Members l [(String.ofList k, v)] rest
  | cons {l l₁ k l₂ l₃ l₄ v l₅ l₆ members rest} (hl : Ws l (.scalar '"' :: l₁))
      (hk : StringBody l₁ k l₂) (hc : Ws l₂ (.scalar ':' :: l₃)) (hs : Ws l₃ l₄)
      (hv : Value l₄ v l₅) (hr : Ws l₅ (.scalar ',' :: l₆)) (h : Members l₆ members rest) :
      Members l ((String.ofList k, v) :: members) rest

end

/-- `JSON-text = ws value ws`. -/
def Document (text : List CodePoint) (v : JsonDoc) : Prop :=
  ∃ l rest, Ws text l ∧ Value l v rest ∧ Ws rest []

end JsonGrammar

end ChatBI.Lib
