import LocalCert.Certificate.GeneralName
import LocalCert.Mail.Address

/-
  General names from texts.  All of them are ASCII, and a
  mail address stands without a name.

  Key definitions include:
    * `Certificate.GeneralName.Kind`
    * `Certificate.GeneralName.ofText?`
-/

------------------------------------------------------------
-- General Names From Texts
------------------------------------------------------------

namespace LocalCert

namespace Certificate

namespace GeneralName

/- The kinds of general names that are written as texts. -/
inductive Kind where
  | dns
  | mail
  | resource
  | address
  deriving DecidableEq, Repr

/- Whether all characters of a text are ASCII. -/
def isAscii
    (s : String) : Bool :=
  s.toList.all (fun c => c.toNat < 128)

/- The general name of a kind that a text is. -/
def ofText?
    (kind : Kind)
    (s : String) : Option GeneralName :=
  match kind with
  | .dns => if isAscii s then some (.dns s) else none
  | .resource => if isAscii s then some .other else none
  | .mail =>
      if isAscii s && Mail.isPlainAddress s.toList then
        some .other
      else
        none
  | .address => (Net.Address.ofText? s).map .address

end GeneralName

end Certificate

end LocalCert
