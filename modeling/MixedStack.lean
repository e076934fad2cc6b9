import MixedStack.Main
import MixedStack.Proofs.Pushed
import MixedStack.Proofs.Lookups
import MixedStack.Proofs.Independence
import MixedStack.Proofs.Entries
import MixedStack.Proofs.Endings
import MixedStack.Proofs.Faults
import MixedStack.Proofs.Scripts
import MixedStack.Proofs.Untouched
import MixedStack.Proofs.Labels
import MixedStack.Proofs.Overlaps
import MixedStack.Proofs.Documents
import MixedStack.Proofs.Attribution
import MixedStack.Proofs.Defaults
import MixedStack.Proofs.Tags
import MixedStack.Proofs.Arguments
import MixedStack.Proofs.Idle
