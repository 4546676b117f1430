import LocalCert.Net.Address

/-
  The names that a certificate is asked for: the hostname
  with the loopback names, as alternative names and as a
  distinguished name.

  Key definitions include:
    * `Subject.names`
    * `Subject.AltName`
    * `Subject.altNamesText`
    * `Subject.DistinguishedName`
    * `Subject.extensionText`
-/

------------------------------------------------------------
-- Names
------------------------------------------------------------

namespace LocalCert

namespace Subject

/- The names that every certificate covers. -/
def loopbackNames : List String :=
  ["localhost", "127.0.0.1"]

/- The hostname and the loopback names, each once. -/
def names
    (hostname : String) : List String :=
  hostname :: loopbackNames.filter (· != hostname)

------------------------------------------------------------
-- Alternative Names
------------------------------------------------------------

/- A requested alternative name, as text. -/
inductive AltName where
  | dns (name : String)
  | address (name : String)
  deriving DecidableEq, Repr

namespace AltName

/- An address if the name reads as one. -/
def ofName
    (name : String) : AltName :=
  if (Net.Address.ofText? name).isSome then
    .address name
  else
    .dns name

/- The name with its kind in front. -/
def text : AltName → String
  | .dns name => "DNS:" ++ name
  | .address name => "IP:" ++ name

end AltName

/- The alternative names for a hostname. -/
def altNames
    (hostname : String) : List AltName :=
  (names hostname).map AltName.ofName

/- The alternative names for a hostname in one text. -/
def altNamesText
    (hostname : String) : String :=
  Text.joinWith "," ((altNames hostname).map AltName.text)

------------------------------------------------------------
-- Distinguished Names
------------------------------------------------------------

/- The six attributes of a subject. -/
structure DistinguishedName where
  country : String
  state : String
  locality : String
  organization : String
  organizationalUnit : String
  commonName : String
  deriving DecidableEq, Repr

namespace DistinguishedName

/- The attributes with their short names, in order. -/
def attributes
    (dn : DistinguishedName) : List (String × String) :=
  [("C", dn.country), ("ST", dn.state),
    ("L", dn.locality), ("O", dn.organization),
    ("OU", dn.organizationalUnit), ("CN", dn.commonName)]

/- One attribute with a slash in front. -/
def attributeText
    (field : String × String) : String :=
  "/" ++ field.1 ++ "=" ++ field.2

/- The subject as one command line argument. -/
def text
    (dn : DistinguishedName) : String :=
  String.join (dn.attributes.map attributeText)

end DistinguishedName

------------------------------------------------------------
-- The Extension Text
------------------------------------------------------------

/- The section that holds the requested extensions. -/
def extensionSection : String := "v3_req"

/- The lines of the extension section. -/
def extensionLines
    (hostname : String) : List String :=
  ["[" ++ extensionSection ++ "]",
    "keyUsage = critical, digitalSignature, keyAgreement",
    "extendedKeyUsage = serverAuth",
    "subjectAltName = " ++ altNamesText hostname, ""]

/- The extension section as one text. -/
def extensionText
    (hostname : String) : String :=
  Text.joinWith "\n" (extensionLines hostname)

end Subject

end LocalCert
