import LocalCert.Json.Reader

/-
  The grammar of JSON texts, as a relation between the
  characters of a phrase and what the phrase denotes.  It
  has the values of the standard alone, and no words for the
  special doubles.

  Key definitions include:
    * `Json.Units`
    * `Json.Numeral`
    * `Json.Phrase`
    * `Json.Denotes`
-/

------------------------------------------------------------
-- Blanks
------------------------------------------------------------

namespace LocalCert

namespace Json

/- Characters that may stand between the tokens. -/
def IsSpace
    (cs : List Char) : Prop :=
  ∀ c ∈ cs, c = ' ' ∨ c = '\n' ∨ c = '\r' ∨ c = '\t'

------------------------------------------------------------
-- Strings
------------------------------------------------------------

/-
  The characters between the quotes of a string, with the
  code points and code units that they stand for.  A control
  character, a quote and a backslash have to be escaped.
-/
inductive Units : List Char → List Nat → Prop where
  | nil : Units [] []
  | plain
      {c : Char}
      {cs : List Char}
      {ns : List Nat}
      (control : 32 ≤ c.toNat)
      (quote : c ≠ '\x22')
      (backslash : c ≠ '\x5c')
      (rest : Units cs ns) :
      Units (c :: cs) (c.toNat :: ns)
  | letter
      {e : Char}
      {n : Nat}
      {cs : List Char}
      {ns : List Nat}
      (meaning : letterMeaning? e = some n)
      (rest : Units cs ns) :
      Units ('\x5c' :: e :: cs) (n :: ns)
  | digits
      {a b c d : Char}
      {n : Nat}
      {cs : List Char}
      {ns : List Nat}
      (unit : unitOfDigits? a b c d = some n)
      (rest : Units cs ns) :
      Units ('\x5c' :: 'u' :: a :: b :: c :: d :: cs)
        (n :: ns)

------------------------------------------------------------
-- Numbers
------------------------------------------------------------

/- One decimal digit or more. -/
def IsDigits
    (ds : List Char) : Prop :=
  ds ≠ [] ∧ ∀ d ∈ ds, '0' ≤ d ∧ d ≤ '9'

/- Digits without a zero in front of others. -/
def IsWhole
    (ds : List Char) : Prop :=
  IsDigits ds ∧ (ds.head? = some '0' → ds = ['0'])

/- The fraction of a number, by its digits. -/
inductive Fraction :
    List Char → Option (List Char) → Prop where
  | absent : Fraction [] none
  | present
      {ds : List Char}
      (h : IsDigits ds) :
      Fraction ('.' :: ds) (some ds)

/- The sign of a power of ten; a minus sign negates it. -/
inductive Sign : List Char → Bool → Prop where
  | absent : Sign [] false
  | plus : Sign ['+'] false
  | minus : Sign ['-'] true

/- A number of digits with a sign. -/
def signed
    (negative : Bool)
    (ds : List Char) : Int :=
  let n := Int.ofNat (Text.ofDecimalDigits ds)
  if negative then -n else n

/- The power of ten of a number. -/
inductive Exponent : List Char → Option Int → Prop where
  | absent : Exponent [] none
  | present
      {e : Char}
      {cs ds : List Char}
      {negative : Bool}
      (mark : e = 'e' ∨ e = 'E')
      (sign : Sign cs negative)
      (h : IsDigits ds) :
      Exponent (e :: (cs ++ ds)) (some (signed negative ds))

/-
  A number after its sign.  It is a double if it has a
  fraction or an exponent.
-/
inductive Numeral
    (negative : Bool) : List Char → Json → Prop where
  | whole
      {ds : List Char}
      (h : IsWhole ds) :
      Numeral negative ds (.whole (signed negative ds))
  | real
      {ds fs es : List Char}
      {fraction : Option (List Char)}
      {exponent : Option Int}
      (h : IsWhole ds)
      (places : Fraction fs fraction)
      (power : Exponent es exponent)
      (more : fraction.isSome ∨ exponent.isSome) :
      Numeral negative (ds ++ (fs ++ es))
        (.real
          (Double.Unsigned.toDouble negative
            ⟨ds, fraction.getD [], exponent.getD 0⟩))

------------------------------------------------------------
-- Values
------------------------------------------------------------

/-
  The kinds of phrases: a value, a value among blanks, a
  list of them, a key with its value, and a list of those.
-/
inductive Phrase where
  | value (v : Json)
  | element (v : Json)
  | elements (vs : List Json)
  | member (key : String) (v : Json)
  | members (ms : Members)

/-
  What the characters of a phrase denote.  Of members with
  one key the last one counts.
-/
inductive Denotes : List Char → Phrase → Prop where
  | null : Denotes ['n', 'u', 'l', 'l'] (.value .null)
  | isTrue :
      Denotes ['t', 'r', 'u', 'e'] (.value (.bool true))
  | isFalse :
      Denotes ['f', 'a', 'l', 's', 'e']
        (.value (.bool false))
  | positive
      {cs : List Char}
      {v : Json}
      (h : Numeral false cs v) :
      Denotes cs (.value v)
  | negative
      {cs : List Char}
      {v : Json}
      (h : Numeral true cs v) :
      Denotes ('-' :: cs) (.value v)
  | text
      {cs : List Char}
      {ns : List Nat}
      (h : Units cs ns) :
      Denotes ('\x22' :: (cs ++ ['\x22']))
        (.value (.ofSymbols (joinUnits ns)))
  | emptyList
      {s : List Char}
      (space : IsSpace s) :
      Denotes ('[' :: (s ++ [']'])) (.value (.list []))
  | list
      {cs : List Char}
      {vs : List Json}
      (h : Denotes cs (.elements vs)) :
      Denotes ('[' :: (cs ++ [']'])) (.value (.list vs))
  | emptyObject
      {s : List Char}
      (space : IsSpace s) :
      Denotes ('\x7b' :: (s ++ ['\x7d']))
        (.value (.object []))
  | object
      {cs : List Char}
      {ms : Members}
      (h : Denotes cs (.members ms)) :
      Denotes ('\x7b' :: (cs ++ ['\x7d']))
        (.value (.object (putAll [] ms)))
  | element
      {before cs after : List Char}
      {v : Json}
      (front : IsSpace before)
      (h : Denotes cs (.value v))
      (back : IsSpace after) :
      Denotes (before ++ (cs ++ after)) (.element v)
  | lastElement
      {cs : List Char}
      {v : Json}
      (h : Denotes cs (.element v)) :
      Denotes cs (.elements [v])
  | elements
      {cs rest : List Char}
      {v : Json}
      {vs : List Json}
      (h : Denotes cs (.element v))
      (more : Denotes rest (.elements vs)) :
      Denotes (cs ++ ',' :: rest) (.elements (v :: vs))
  | member
      {before ks after cs : List Char}
      {ns : List Nat}
      {key : List Char}
      {v : Json}
      (front : IsSpace before)
      (text : Units ks ns)
      (name : Text.chars? (joinUnits ns) = some key)
      (back : IsSpace after)
      (h : Denotes cs (.element v)) :
      Denotes
        (before ++
          ('\x22' :: (ks ++ '\x22' :: (after ++ ':' :: cs))))
        (.member (String.ofList key) v)
  | lastMember
      {cs : List Char}
      {key : String}
      {v : Json}
      (h : Denotes cs (.member key v)) :
      Denotes cs (.members [(key, v)])
  | members
      {cs rest : List Char}
      {key : String}
      {v : Json}
      {ms : Members}
      (h : Denotes cs (.member key v))
      (more : Denotes rest (.members ms)) :
      Denotes (cs ++ ',' :: rest) (.members ((key, v) :: ms))

end Json

end LocalCert
