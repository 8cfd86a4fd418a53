import CommandTemplates.Main
import CommandTemplates.Host.Machine
import CommandTemplates.Proofs.Document.Idempotence
import CommandTemplates.Proofs.Document.GuideKept
import CommandTemplates.Proofs.Document.NoticeOnce
import CommandTemplates.Proofs.Workspace.Realization
import CommandTemplates.Proofs.Workspace.Outcome
import CommandTemplates.Proofs.Workspace.Composition
import CommandTemplates.Proofs.Workspace.Preview
import CommandTemplates.Proofs.Workspace.TransactionHistory
import CommandTemplates.Proofs.Workspace.Gate
import CommandTemplates.Proofs.Rules.RoundTrip
import CommandTemplates.Proofs.Document.Stages
import CommandTemplates.Proofs.Document.Interaction
import CommandTemplates.Proofs.Document.FrontmatterBlock
import CommandTemplates.Proofs.Document.GuideTable
import CommandTemplates.Proofs.Rules.FirstFault
import CommandTemplates.Proofs.Workspace.Coverage
import CommandTemplates.Proofs.Workspace.Printing
