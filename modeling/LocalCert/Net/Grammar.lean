import LocalCert.Net.Address

/-
  The grammar of address literals, as relations on lists of
  characters.  It says what a literal looks like, not which
  address it denotes.

  Key definitions include:
    * `Net.IsOctet`
    * `Net.IsFour`
    * `Net.Groups`
    * `Net.IsSix`
    * `Net.IsLiteral`
-/

------------------------------------------------------------
-- Four Octets
------------------------------------------------------------

namespace LocalCert

namespace Net

/-
  One to three digits for a number up to 255, without a
  leading zero.
-/
def IsOctet
    (ds : List Char) : Prop :=
  (ds.length = 1 ∨ ds.length = 2 ∨ ds.length = 3) ∧
    (∀ d ∈ ds, '0' ≤ d ∧ d ≤ '9') ∧
    Text.ofDecimalDigits ds ≤ 255 ∧
    (ds.head? = some '0' → ds = ['0'])

/- Four octets with dots between them. -/
def IsFour
    (cs : List Char) : Prop :=
  ∃ a b c d,
    IsOctet a ∧ IsOctet b ∧ IsOctet c ∧ IsOctet d ∧
      cs = a ++ '.' :: b ++ '.' :: c ++ '.' :: d

------------------------------------------------------------
-- Eight Groups
------------------------------------------------------------

/- A hexadecimal digit of either case. -/
def IsHexDigit
    (c : Char) : Prop :=
  ('0' ≤ c ∧ c ≤ '9') ∨ ('a' ≤ c ∧ c ≤ 'f') ∨
    ('A' ≤ c ∧ c ≤ 'F')

/- One to four hexadecimal digits. -/
def IsGroup
    (ds : List Char) : Prop :=
  1 ≤ ds.length ∧ ds.length ≤ 4 ∧ ∀ d ∈ ds, IsHexDigit d

/-
  A number of groups with colons between them.  If a dotted
  end is allowed, four octets may stand for the last two.
-/
inductive Groups
    (dottedEnd : Bool) : Nat → List Char → Prop where
  | one
      {ds : List Char}
      (h : IsGroup ds) :
      Groups dottedEnd 1 ds
  | two
      {cs : List Char}
      (allowed : dottedEnd = true)
      (h : IsFour cs) :
      Groups dottedEnd 2 cs
  | more
      {n : Nat}
      {ds cs : List Char}
      (h : IsGroup ds)
      (rest : Groups dottedEnd n cs) :
      Groups dottedEnd (n + 1) (ds ++ ':' :: cs)

/- A number of groups, which may be none. -/
def Side
    (dottedEnd : Bool)
    (n : Nat)
    (cs : List Char) : Prop :=
  (n = 0 ∧ cs = []) ∨ Groups dottedEnd n cs

/-
  Eight groups, or fewer of them with one double colon for
  those that are left out.
-/
def IsSix
    (cs : List Char) : Prop :=
  Groups true 8 cs ∨
    ∃ m n high low,
      Side false m high ∧ Side true n low ∧ m + n < 8 ∧
        cs = high ++ ':' :: ':' :: low

/- A zone: some characters, but no percent sign. -/
def IsZone
    (cs : List Char) : Prop :=
  cs ≠ [] ∧ '%' ∉ cs

------------------------------------------------------------
-- Literals
------------------------------------------------------------

/-
  An address literal: four octets, or eight groups that may
  have a zone after a percent sign.
-/
def IsLiteral
    (cs : List Char) : Prop :=
  IsFour cs ∨ IsSix cs ∨
    ∃ address zone,
      IsSix address ∧ IsZone zone ∧
        cs = address ++ '%' :: zone

end Net

end LocalCert
