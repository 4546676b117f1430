import LocalCert.Text.Quoted

/-
  Issued material: a private key and its certificate, both
  as texts.  Its shown form leaves the key out.

  Key definitions include:
    * `Material`
    * `Material.shown`
-/

------------------------------------------------------------
-- Material
------------------------------------------------------------

namespace LocalCert

/- A private key and its certificate. -/
structure Material where
  key : String
  cert : String
  deriving DecidableEq, Repr, Inhabited

/- The material without its key. -/
def Material.shown
    (m : Material) : String :=
  "CertificateMaterial(cert=" ++ Text.quoted m.cert ++ ")"

end LocalCert
