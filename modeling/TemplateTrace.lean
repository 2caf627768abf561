import TemplateTrace.Main
import TemplateTrace.Proofs.Command.CacheList
import TemplateTrace.Proofs.Command.ExitCodes
import TemplateTrace.Proofs.Command.FailedBuild
import TemplateTrace.Proofs.Command.Outputs
import TemplateTrace.Proofs.Command.PrintedStacks
import TemplateTrace.Proofs.Command.TextSettings
import TemplateTrace.Proofs.FileTable
import TemplateTrace.Proofs.Lines
import TemplateTrace.Proofs.Mentions
import TemplateTrace.Proofs.NormalForm
import TemplateTrace.Proofs.Prefixes
import TemplateTrace.Proofs.Rejections
import TemplateTrace.Proofs.Service.Eviction
import TemplateTrace.Proofs.Service.Freshness
import TemplateTrace.Proofs.Service.History
import TemplateTrace.Proofs.Service.Interleaving
import TemplateTrace.Proofs.Spellings
import TemplateTrace.Proofs.Store.Agreement
import TemplateTrace.Proofs.Store.Concurrency
import TemplateTrace.Proofs.Store.Listing
import TemplateTrace.Proofs.Store.Slices
import TemplateTrace.Proofs.WorkingDirectory
