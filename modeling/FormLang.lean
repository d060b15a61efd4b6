import FormLang.Main
import FormLang.Proofs.CommandLine.FrontEnds
import FormLang.Proofs.Console.Interrupted
import FormLang.Proofs.Equality
import FormLang.Proofs.Evaluation.Annotations
import FormLang.Proofs.Evaluation.Applications
import FormLang.Proofs.Evaluation.ByValue
import FormLang.Proofs.Evaluation.Effects
import FormLang.Proofs.Evaluation.FailedDefinitions
import FormLang.Proofs.Evaluation.Formation
import FormLang.Proofs.Evaluation.FunctionFree
import FormLang.Proofs.Evaluation.Mapping
import FormLang.Proofs.Evaluation.Permanence
import FormLang.Proofs.Evaluation.Properties
import FormLang.Proofs.Evaluation.Reserved
import FormLang.Proofs.Evaluation.SelfEvaluation
import FormLang.Proofs.Evaluation.Soundness
import FormLang.Proofs.Evaluation.Unmentioned
import FormLang.Proofs.Kernel.Answers
import FormLang.Proofs.Kernel.Sharing
import FormLang.Proofs.Procedures.Lists
import FormLang.Proofs.Procedures.Promotion
import FormLang.Proofs.Procedures.Ranges
import FormLang.Proofs.Procedures.Refusals
import FormLang.Proofs.Sessions.DataTexts
import FormLang.Proofs.Sessions.Programs
import FormLang.Proofs.Sessions.Residue
import FormLang.Proofs.Sessions.Sequence
import FormLang.Proofs.Source.Kinds
import FormLang.Proofs.Source.Layouts
import FormLang.Proofs.Source.Reread
import FormLang.Proofs.Source.Violations
