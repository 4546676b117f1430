import LocalCert.Text.Blank
import LocalCert.Text.Newline

/-
  The small parts of mail addresses: white space, comments,
  quoted texts, atoms, phrases and domains.  Comments are
  collected wherever they stand.

  Key definitions include:
    * `Mail.Scan`
    * `Mail.delimited`
    * `Mail.skip`
    * `Mail.phrases`
    * `Mail.domain`
    * `Mail.addressSpec`
-/

------------------------------------------------------------
-- Characters
------------------------------------------------------------

namespace LocalCert

namespace Mail

/- The characters that have a meaning in addresses. -/
def isSpecial
    (c : Char) : Bool :=
  "()<>@,:;.\"[]".toList.contains c

/- Spaces and tabs. -/
def isSpace
    (c : Char) : Bool :=
  c == ' ' || c == '\t'

/- Spaces, tabs and the characters of line ends. -/
def isFolding
    (c : Char) : Bool :=
  isSpace c || c == '\r' || c == '\n'

/- Whether a character ends an atom. -/
def endsAtom
    (c : Char) : Bool :=
  isSpecial c || isFolding c

/- Whether a character ends a word of a phrase. -/
def endsWord
    (c : Char) : Bool :=
  endsAtom c && c != '.'

------------------------------------------------------------
-- Comments And White Space
------------------------------------------------------------

/- What is left of a text, and the comments up to there. -/
structure Scan where
  rest : List Char
  comments : List (List Char)
  deriving DecidableEq, Repr

/-
  The content up to a closing character or a carriage
  return, and what follows.  A backslash takes away the
  meaning of the next character; comments may nest.
-/
def delimitedBy
    (fuel : Nat)
    (closing : Char)
    (nests : Bool)
    (cs : List Char) : List Char × List Char :=
  match fuel, cs with
  | 0, _ => ([], cs)
  | _, [] => ([], [])
  | _, ['\\'] => ([], [])
  | fuel + 1, c :: cs =>
      if c == closing || c == '\r' then
        ([], cs)
      else if nests && c == '(' then
        let (inner, rest) := delimitedBy fuel ')' true cs
        let (more, rest) := delimitedBy fuel closing nests rest
        (inner ++ more, rest)
      else if c == '\\' then
        let (more, rest) :=
          delimitedBy fuel closing nests (cs.drop 1)
        (cs.take 1 ++ more, rest)
      else
        let (more, rest) := delimitedBy fuel closing nests cs
        (c :: more, rest)

/- The content after an opening character. -/
def delimited
    (closing : Char)
    (nests : Bool)
    (cs : List Char) : List Char × List Char :=
  delimitedBy (cs.length + 1) closing nests cs

/- The scan after a comment, whose opening is passed. -/
def Scan.afterComment
    (s : Scan)
    (cs : List Char) : Scan :=
  let (comment, rest) := delimited ')' true cs
  ⟨rest, s.comments ++ [comment]⟩

/- The white space in front, without line ends. -/
def skipBy
    (fuel : Nat)
    (s : Scan) : List Char × Scan :=
  match fuel, s.rest with
  | 0, _ => ([], s)
  | _, [] => ([], s)
  | fuel + 1, c :: cs =>
      if c == '(' then
        skipBy fuel (s.afterComment cs)
      else if isFolding c then
        let (space, after) := skipBy fuel { s with rest := cs }
        (if isSpace c then c :: space else space, after)
      else
        ([], s)

/- Pass over white space and comments. -/
def skip
    (s : Scan) : List Char × Scan :=
  skipBy (s.rest.length + 1) s

/- Pass over white space and comments, and over one more. -/
def Scan.skipped
    (s : Scan) : Scan :=
  (skip s).2

------------------------------------------------------------
-- Phrases And Domains
------------------------------------------------------------

/- The scan without its first character. -/
def Scan.advance
    (s : Scan) : Scan :=
  { s with rest := s.rest.drop 1 }

/- The characters up to one that ends a word. -/
def word
    (ends : Char → Bool)
    (s : Scan) : List Char × Scan :=
  let goesOn := fun c => !ends c
  (s.rest.takeWhile goesOn,
    { s with rest := s.rest.dropWhile goesOn })

/- Words and quoted texts, of which there is a bound. -/
def phrasesBy
    (fuel : Nat)
    (s : Scan) : List (List Char) × Scan :=
  match fuel, s.rest with
  | 0, _ => ([], s)
  | _, [] => ([], s)
  | fuel + 1, c :: cs =>
      if isFolding c then
        phrasesBy fuel s.advance
      else if c == '"' then
        let (quote, rest) := delimited '"' false cs
        let (more, after) := phrasesBy fuel { s with rest }
        (quote :: more, after)
      else if c == '(' then
        phrasesBy fuel (s.afterComment cs)
      else if endsWord c then
        ([], s)
      else
        let (first, after) := word endsWord s
        let (more, after) := phrasesBy fuel after
        (first :: more, after)

/- The words and quoted texts of a phrase. -/
def phrases
    (s : Scan) : List (List Char) × Scan :=
  phrasesBy (s.rest.length + 1) s

/- A domain after what is found of it already. -/
def domainBy
    (fuel : Nat)
    (found : List Char)
    (s : Scan) : List Char × Scan :=
  match fuel, s.rest with
  | 0, _ => (found, s)
  | _, [] => (found, s)
  | fuel + 1, c :: cs =>
      if isSpace c then
        domainBy fuel found s.advance
      else if c == '(' then
        domainBy fuel found (s.afterComment cs)
      else if c == '[' then
        let (literal, rest) := delimited ']' false cs
        domainBy fuel (found ++ '[' :: literal ++ [']'])
          { s with rest }
      else if c == '.' then
        domainBy fuel (found ++ ['.']) s.advance
      else if c == '@' then
        ([], s)
      else if endsAtom c then
        (found, s)
      else
        let (atom, after) := word endsAtom s
        domainBy fuel (found ++ atom) after

/- A domain; a second at sign makes it empty. -/
def domain
    (s : Scan) : List Char × Scan :=
  domainBy (s.rest.length + 1) [] s

------------------------------------------------------------
-- Local Parts
------------------------------------------------------------

/- Words, the last one first, without blanks at the end. -/
def dropBlank
    (words : List (List Char)) : List (List Char) :=
  match words with
  | w :: ws => if w.all Text.isBlank then ws else words
  | [] => []

/- A quoted text with its quotes and backslashes. -/
def quoted
    (content : List Char) : List Char :=
  let escape := fun c =>
    if c == '"' || c == '\\' then ['\\', c] else [c]
  '"' :: content.flatMap escape ++ ['"']

/- The words of a local part, the last one first. -/
def localWordsBy
    (fuel : Nat)
    (words : List (List Char))
    (s : Scan) : List (List Char) × Scan :=
  match fuel, s.rest with
  | 0, _ => (words, s)
  | _, [] => (words, s)
  | fuel + 1, c :: cs =>
      if c == '.' then
        localWordsBy fuel (['.'] :: dropBlank words)
          s.advance.skipped
      else if c != '"' && endsAtom c then
        (dropBlank words, s)
      else
        let (found, after) :=
          if c == '"' then
            let (content, rest) := delimited '"' false cs
            (quoted content, { s with rest })
          else
            word endsAtom s
        let (space, after) := skip after
        let words := found :: words
        localWordsBy fuel
          (if space.isEmpty then words else space :: words)
          after

/- A local part, with its domain if there is one. -/
def addressSpec
    (s : Scan) : List Char × Scan :=
  let s := s.skipped
  let (words, s) := localWordsBy (s.rest.length + 1) [] s
  let front := words.reverse.flatMap id
  if s.rest.head? == some '@' then
    let (found, s) := domain s.advance.skipped
    (if found.isEmpty then [] else front ++ '@' :: found, s)
  else
    (front, s)

end Mail

end LocalCert
