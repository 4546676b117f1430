import LocalCert.Strategy.Basic
import LocalCert.Tool
import LocalCert.Workspace

/-
  Issuing in three steps: a key, a request for the hostname,
  and a certificate signed with the key itself.  Each step
  runs only after the one before it succeeded.

  Key definitions include:
    * `Manual.keyCommand`
    * `Manual.requestCommand`
    * `Manual.signCommand`
    * `Manual.issue`
    * `Strategy.manual`
-/

------------------------------------------------------------
-- The Three Commands
------------------------------------------------------------

namespace LocalCert

namespace Manual

/- The start of the names of the workspaces. -/
def workspaceStart : String := "dev-certs-manual-"

/- The file of the private key. -/
def keyFile
    (workspace : Path) : String :=
  (workspace.child "key.pem").text

/- The file of the request. -/
def requestFile
    (workspace : Path) : String :=
  (workspace.child "cert.csr").text

/- The file of the certificate. -/
def certFile
    (workspace : Path) : String :=
  (workspace.child "cert.pem").text

/- The command that makes the private key. -/
def keyCommand
    (config : Config)
    (workspace : Path) : Tool.Command where
  stage := .key
  argv :=
    [config.cryptoTool, "ecparam", "-genkey", "-noout",
      "-name", config.curve, "-out", keyFile workspace]
  timeout := config.toolTimeout

/- The command that makes the request. -/
def requestCommand
    (config : Config)
    (hostname : String)
    (workspace : Path) : Tool.Command where
  stage := .request
  argv :=
    [config.cryptoTool, "req", "-new",
      "-key", keyFile workspace,
      "-out", requestFile workspace,
      "-subj", (config.subject hostname).text,
      "-addext",
      "subjectAltName=" ++ Subject.altNamesText hostname]
  timeout := config.toolTimeout

/-
  The command that signs the request.  The extensions of a
  request are not taken over, so they are given again.
-/
def signCommand
    (config : Config)
    (hostname : String)
    (workspace : Path) : Tool.Command where
  stage := .signing
  argv :=
    [config.cryptoTool, "x509", "-req", "-sha256",
      "-days", Text.intText config.validityDays,
      "-in", requestFile workspace,
      "-signkey", keyFile workspace,
      "-out", certFile workspace,
      "-extensions", Subject.extensionSection,
      "-extfile", "/dev/stdin"]
  timeout := config.toolTimeout
  input := some (Subject.extensionText hostname)

------------------------------------------------------------
-- Issuing
------------------------------------------------------------

/- Run the three steps and read what they wrote. -/
def attempt
    (config : Config)
    (hostname : String)
    (workspace : Path) : Act Material := do
  let _ ← Tool.run (keyCommand config workspace)
  let _ ← Tool.run (requestCommand config hostname workspace)
  let _ ← Tool.run (signCommand config hostname workspace)
  Workspace.readMaterial
    (keyFile workspace) (certFile workspace)

/- Issue material for a hostname. -/
def issue
    (config : Config)
    (hostname : String) : Act Material := do
  let material ←
    Workspace.within workspaceStart config.workspaceDir
      (attempt config hostname)
  Act.report (.selfSigned config.cryptoTool hostname)
  return material

end Manual

/-
  The strategy of the three steps, with the configuration
  that stands in the world when it is asked to issue.
-/
def Strategy.manual
    (config : World → Config) : Strategy where
  name := manualName
  issue := fun hostname => do
    let c ← Act.look config
    Manual.issue c hostname

end LocalCert
