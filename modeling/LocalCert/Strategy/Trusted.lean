import LocalCert.Strategy.Basic
import LocalCert.Tool
import LocalCert.Workspace

/-
  Issuing through a tool with a local authority of its own,
  which signs for the hostname and the loopback names.

  Key definitions include:
    * `Trusted.command`
    * `Trusted.issue`
    * `Strategy.trusted`
-/

------------------------------------------------------------
-- The Trusted Tool
------------------------------------------------------------

namespace LocalCert

namespace Trusted

/- The start of the names of the workspaces. -/
def workspaceStart : String := "dev-certs-trusted-"

/- The command that asks for a key and a certificate. -/
def command
    (config : Config)
    (workspace : Path)
    (hostname : String) : Tool.Command where
  stage := .trusted
  argv :=
    [config.trustedTool,
      "-key-file", (workspace.child "key.pem").text,
      "-cert-file", (workspace.child "cert.pem").text,
      "--"] ++ Subject.names hostname
  timeout := config.toolTimeout
  cwd := some workspace.text

/- Run the tool in a workspace and read what it wrote. -/
def attempt
    (config : Config)
    (hostname : String)
    (workspace : Path) : Act Material := do
  let _ ← Tool.run (command config workspace hostname)
  Workspace.readMaterial
    (workspace.child "key.pem").text
    (workspace.child "cert.pem").text

/- Issue material for a hostname. -/
def issue
    (config : Config)
    (hostname : String) : Act Material := do
  let material ←
    Workspace.within workspaceStart config.workspaceDir
      (attempt config hostname)
  Act.report (.issued config.trustedTool hostname)
  return material

end Trusted

/-
  The strategy of the trusted tool, with the configuration
  that stands in the world when it is asked to issue.
-/
def Strategy.trusted
    (config : World → Config) : Strategy where
  name := trustedName
  issue := fun hostname => do
    let c ← Act.look config
    Trusted.issue c hostname

end LocalCert
