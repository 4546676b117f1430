import LocalCert.CommandLine.Options

/-
  The help and the usage of the command line, and what is
  printed when it is not carried out.

  Key definitions include:
    * `CommandLine.usage`
    * `CommandLine.help`
    * `CommandLine.Stop.stdout`
    * `CommandLine.Stop.stderr`
    * `CommandLine.Stop.status`
-/

------------------------------------------------------------
-- Help
------------------------------------------------------------

namespace LocalCert

namespace CommandLine

/- The name of the program. -/
def programName : String := "provision_dev_cert"

/- Lines, each with its end. -/
def unlines
    (lines : List String) : String :=
  String.join (lines.map (· ++ "\n"))

/- How the program is called. -/
def usage : String :=
  unlines
    ["usage: " ++ programName ++
        " [-h] [--hostname HOSTNAME]" ++
        " [--output-dir OUTPUT_DIR]",
      "                          [--timeout TIMEOUT]" ++
        " [--verbose]"]

/- The help of the program. -/
def help : String :=
  usage ++ unlines
    ["",
      "Provision development TLS certificate",
      "",
      "options:",
      "  -h, --help            show this help message" ++
        " and exit",
      "  --hostname HOSTNAME   Hostname used as CN and" ++
        " SAN entry (default: " ++
        Provisioner.defaultHostname ++ ")",
      "  --output-dir OUTPUT_DIR",
      "                        Output directory for" ++
        " key.pem and cert.pem (default:",
      "                        certs)",
      "  --timeout TIMEOUT     Seconds allowed for each" ++
        " external tool invocation",
      "  --verbose             Log tool command lines"]

------------------------------------------------------------
-- Stops
------------------------------------------------------------

namespace Stop

/- What is printed as the answer. -/
def stdout : Stop → String
  | .help => CommandLine.help
  | .misuse _ => ""

/- What is printed as an error. -/
def stderr : Stop → String
  | .help => ""
  | .misuse m =>
      usage ++ programName ++ ": error: " ++ m.message ++ "\n"

/- The exit status. -/
def status : Stop → Nat
  | .help => 0
  | .misuse _ => 2

end Stop

end CommandLine

end LocalCert
