import LocalCert.Main
import LocalCert.Session
import LocalCert.Workspace.Stack
import LocalCert.Journal.Steps
import LocalCert.Json.Reader
import LocalCert.Json.Grammar
import LocalCert.Files.WellFormed
import LocalCert.Net.Grammar
import LocalCert.Subject.Reading
import LocalCert.ConfigText
import LocalCert.Calendar.Reading
import LocalCert.Certificate.GeneralName.Reading
import LocalCert.Proofs.Files.Paths
import LocalCert.Proofs.Files.Nodes
import LocalCert.Proofs.World.Actions
import LocalCert.Proofs.Files.Changes
import LocalCert.Proofs.Files.Operations
import LocalCert.Proofs.World.Course
import LocalCert.Proofs.Tool.Confinement
import LocalCert.Proofs.Workspace.Lifetime
import LocalCert.Proofs.Session.Restoring
import LocalCert.Proofs.Provisioner.Fallback
import LocalCert.Proofs.Files.Alike
import LocalCert.Proofs.Text.Decoding
import LocalCert.Proofs.CommandLine.Alike
import LocalCert.Proofs.Secrecy
import LocalCert.Proofs.Tool.Sequence
import LocalCert.Proofs.Manual.Stages
import LocalCert.Proofs.ConfigText
import LocalCert.Proofs.Hostname
import LocalCert.Proofs.Subject.Requests
import LocalCert.Proofs.Subject.Verbatim
import LocalCert.Proofs.Files.Views
import LocalCert.Proofs.Workspace.Names
import LocalCert.Proofs.Tool.Locality
import LocalCert.Proofs.World.Abreast
import LocalCert.Proofs.Files.Leftovers
import LocalCert.Proofs.World.Sides
import LocalCert.Proofs.World.Warnings
import LocalCert.Proofs.Session.Leftovers
import LocalCert.Proofs.Manual.Abreast
import LocalCert.Proofs.Provisioner.Helper
import LocalCert.Proofs.CommandLine.Options
import LocalCert.Proofs.World.Chronicle
import LocalCert.Proofs.Session.Parallel
import LocalCert.Proofs.CommandLine.Parallel
import LocalCert.Proofs.Levels
import LocalCert.Proofs.Session.Keeping
import LocalCert.Proofs.Files.Writing
import LocalCert.Proofs.Output
import LocalCert.Proofs.CommandLine.Frame
import LocalCert.Proofs.World.Failing
import LocalCert.Proofs.CommandLine.Endings
import LocalCert.Proofs.Json.Members
import LocalCert.Proofs.Journal.Fields
import LocalCert.Proofs.Journal.Steps
import LocalCert.Proofs.Workspace.Stack
import LocalCert.Proofs.CommandLine.Pair
import LocalCert.Proofs.Json.Reading
import LocalCert.Proofs.Json.Writing
import LocalCert.Proofs.Journal.Lines
import LocalCert.Proofs.Text.Newline
import LocalCert.Proofs.Output.ReadBack
import LocalCert.Proofs.Strategy.Issuers
import LocalCert.Proofs.Strategy.Places
import LocalCert.Proofs.CommandLine.Copies
import LocalCert.Proofs.Text.Defects
import LocalCert.Proofs.Workspace.Acceptance
import LocalCert.Proofs.Tool.Outcomes
import LocalCert.Proofs.Subject.Kinds
import LocalCert.Proofs.Certificate.AltNames
import LocalCert.Proofs.Subject.Attributes
import LocalCert.Proofs.Text.Quoted
import LocalCert.Proofs.Hostname.Language
import LocalCert.Proofs.Inspection.Serial
