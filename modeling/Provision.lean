import Provision.Layout.Normal
import Provision.Main
import Provision.Proofs.CommandLine.Runs
import Provision.Proofs.Creation.Frame
import Provision.Proofs.Creation.Members
import Provision.Proofs.Creation.Script
import Provision.Proofs.Faults.Escapes
import Provision.Proofs.Faults.Loading
import Provision.Proofs.Hooks
import Provision.Proofs.Host.Tables
import Provision.Proofs.Insertion
import Provision.Proofs.Layout.Nulls
import Provision.Proofs.Layout.Numbering
import Provision.Proofs.Layout.Reordered
import Provision.Proofs.Merging
import Provision.Proofs.Mount.Agreement
import Provision.Proofs.Mount.Collisions
import Provision.Proofs.Mount.Nesting
import Provision.Proofs.Mount.Rerun
import Provision.Proofs.Mount.Root
import Provision.Proofs.Mount.Swap
import Provision.Proofs.Mount.Table
import Provision.Proofs.Order.Cycle
import Provision.Proofs.Outcome
import Provision.Proofs.Packages
import Provision.Proofs.Shell.Framing
import Provision.Proofs.Walks
