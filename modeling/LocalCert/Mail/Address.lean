import LocalCert.Mail.Scan

/-
  Mail addresses: plain ones, those in angle brackets after
  a phrase, and groups of addresses.

  Key definitions include:
    * `Mail.Address`
    * `Mail.address`
    * `Mail.addresses`
    * `Mail.isBalanced`
    * `Mail.isPlainAddress`
-/

------------------------------------------------------------
-- Addresses
------------------------------------------------------------

namespace LocalCert

namespace Mail

/- An address with the name in front of it. -/
structure Address where
  name : List Char
  spec : List Char
  deriving DecidableEq, Repr

/- Texts with a space between each two. -/
def spaced
    (texts : List (List Char)) : List Char :=
  [' '].intercalate texts

/- The address in angle brackets, with its route. -/
def routeBy
    (fuel : Nat)
    (s : Scan) : List Char × Scan :=
  match fuel, s.rest with
  | 0, _ => ([], s)
  | _, [] => ([], s)
  | fuel + 1, c :: _ =>
      if c == '>' then
        ([], s.advance)
      else if c == '@' then
        let after := s.advance.skipped
        if after.rest.isEmpty then
          ([], after)
        else
          routeBy fuel (domain after).2.skipped
      else if c == ':' then
        routeBy fuel s.advance.skipped
      else
        let (spec, after) := addressSpec s
        (spec, after.advance)

/- The address after an angle bracket. -/
def route
    (s : Scan) : List Char × Scan :=
  let s := s.advance.skipped
  routeBy (s.rest.length + 1) s

/- A phrase with the comments around it. -/
def phraseName
    (words comments : List (List Char)) : List Char :=
  if comments.isEmpty then
    spaced words
  else
    spaced words ++ [' ', '('] ++ spaced comments ++ [')']

/- Pass over white space, comments and one comma. -/
def Scan.passComma
    (s : Scan) : Scan :=
  let s := s.skipped
  if s.rest.head? == some ',' then s.advance else s

/- The address that is the first word of a phrase. -/
def firstWord
    (words comments : List (List Char)) : List Address :=
  match words with
  | [] => []
  | w :: _ => [⟨spaced comments, w⟩]

mutual

/- The addresses at the front: one, none, or a group. -/
def address
    (fuel : Nat)
    (text : List Char) : List Address × List Char :=
  match fuel with
  | 0 => ([], text)
  | fuel + 1 =>
      let start := Scan.skipped ⟨text, []⟩
      let (words, s) := phrases start
      let s := s.skipped
      let (found, s) : List Address × Scan :=
        match s.rest with
        | [] => (firstWord words s.comments, s)
        | c :: cs =>
            if c == '.' || c == '@' then
              let (spec, s) :=
                addressSpec { s with rest := start.rest }
              ([⟨spaced s.comments, spec⟩], s)
            else if c == ':' then
              let (members, rest) := group fuel cs
              (members, ⟨rest, []⟩)
            else if c == '<' then
              let (spec, s) := route s
              ([⟨phraseName words s.comments, spec⟩], s)
            else if words.isEmpty && isSpecial c then
              ([], s.advance)
            else
              (firstWord words s.comments, s)
      (found, s.passComma.rest)

/- The members of a group up to its semicolon. -/
def group
    (fuel : Nat)
    (text : List Char) : List Address × List Char :=
  match fuel, text with
  | 0, _ => ([], text)
  | _, [] => ([], text)
  | fuel + 1, text =>
      match (Scan.skipped ⟨text, []⟩).rest with
      | ';' :: rest => ([], rest)
      | rest =>
          let (found, rest) := address fuel rest
          let (more, rest) := group fuel rest
          (found ++ more, rest)

end

/- All addresses; where there is none an empty one stands. -/
def addressesBy
    (fuel : Nat)
    (text : List Char) : List Address :=
  match fuel, text with
  | 0, _ => []
  | _, [] => []
  | fuel + 1, text =>
      let (found, rest) := address (2 * text.length + 2) text
      (if found.isEmpty then [⟨[], []⟩] else found) ++
        addressesBy fuel rest

/- All addresses in a text. -/
def addresses
    (text : List Char) : List Address :=
  addressesBy text.length text

------------------------------------------------------------
-- Parentheses
------------------------------------------------------------

/- A character, and whether a backslash stands before it. -/
structure Mark where
  escaped : Bool
  char : Char
  deriving DecidableEq, Repr

/- The characters of a text with their backslashes. -/
def marks : List Char → List Mark
  | [] => []
  | ['\\'] => [⟨false, '\\'⟩]
  | '\\' :: c :: cs => ⟨true, c⟩ :: marks cs
  | c :: cs => ⟨false, c⟩ :: marks cs

/-
  The characters outside quotes.  What is held back after an
  open quote is given out if the quote is never closed.
-/
def outsideQuotes
    (held : Option (List Mark)) : List Mark → List Mark
  | [] => (held.getD []).reverse
  | m :: ms =>
      let isQuote := m == ⟨false, '"'⟩
      match held with
      | none =>
          if isQuote then outsideQuotes (some [m]) ms
          else m :: outsideQuotes none ms
      | some h =>
          if isQuote then outsideQuotes none ms
          else outsideQuotes (some (m :: h)) ms

/- Whether so many open parentheses are all closed. -/
def closes
    (opened : Nat) : List Mark → Bool
  | [] => opened == 0
  | m :: ms =>
      if m == ⟨false, '('⟩ then
        closes (opened + 1) ms
      else if m == ⟨false, ')'⟩ then
        0 < opened && closes (opened - 1) ms
      else
        closes opened ms

/- Whether the parentheses outside quotes are balanced. -/
def isBalanced
    (text : List Char) : Bool :=
  closes 0 (outsideQuotes none (marks text))

------------------------------------------------------------
-- Plain Addresses
------------------------------------------------------------

/-
  Whether a text is one address without a name.  A bracket
  in it shows that its domain is no name.
-/
def isPlainAddress
    (text : List Char) : Bool :=
  isBalanced text &&
    match addresses text with
    | [a] =>
        a.name.isEmpty && !a.spec.isEmpty &&
          !a.spec.contains '['
    | _ => false

end Mail

end LocalCert
