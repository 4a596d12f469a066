import Fixtures.Count
import Fixtures.Decimal.Binary64
import Fixtures.Decimal.Layout
import Fixtures.Decimal.Shortest
import Fixtures.Handle
import Fixtures.Locator
import Fixtures.Machine
import Fixtures.Manifest
import Fixtures.Note
import Fixtures.Path
import Fixtures.Producer.Action
import Fixtures.Producer.Basic
import Fixtures.Producer.Consumer
import Fixtures.Producer.Cycle
import Fixtures.Producer.Failure
import Fixtures.Producer.Session
import Fixtures.Registry
import Fixtures.Scratch
import Fixtures.SeededBytes
import Fixtures.Settings
import Fixtures.Sparse
import Fixtures.Surroundings
import Fixtures.Text.Blank
import Fixtures.Text.Hex
import Fixtures.Text.Printable
import Fixtures.Text.Quoted
import Fixtures.Text.Ranges
import Fixtures.Text.Utf8
import Fixtures.Tree.Basic
import Fixtures.Tree.Edit
import Fixtures.Tree.Ensure
import Fixtures.Tree.Fault
import Fixtures.Tree.Walk
import Fixtures.Twister.Block
import Fixtures.Twister.Draw
import Fixtures.Twister.Generator
import Fixtures.Twister.Session
import Fixtures.Value.Basic
import Fixtures.Value.Equality
import Fixtures.Value.Printer
import Fixtures.Workspace
import Fixtures.Proofs.Producer.Outcome
import Fixtures.Proofs.Producer.Atomicity
import Fixtures.Proofs.Producer.Invariant
import Fixtures.Proofs.Producer.Itemwise
import Fixtures.Proofs.Producer.Stream
import Fixtures.Proofs.Twister.Recurrence
import Fixtures.Proofs.Twister.Bits
import Fixtures.Proofs.Twister.Combination
import Fixtures.Proofs.Twister.Draws
import Fixtures.Proofs.Twister.Seeding
import Fixtures.Proofs.SeededBytes
import Fixtures.Proofs.Producer.Isolation
import Fixtures.Proofs.Producer.Claims
import Fixtures.Proofs.Value.Equality
import Fixtures.Proofs.Path
import Fixtures.Proofs.Tree.Walk
import Fixtures.Proofs.Locator.Override
import Fixtures.Proofs.Locator.Independence
import Fixtures.Proofs.Locator.Outcome
import Fixtures.Proofs.Twister.Independence
import Fixtures.Proofs.Producer.Twins
import Fixtures.Proofs.Tree.View
import Fixtures.Proofs.Tree.Entries
import Fixtures.Proofs.Tree.Descent
import Fixtures.Proofs.Tree.Writing
import Fixtures.Proofs.Tree.Sharing
import Fixtures.Proofs.Scratch
import Fixtures.Proofs.Tree.Edit
import Fixtures.Proofs.Workspace
import Fixtures.Proofs.Twister.Redraws
import Fixtures.Proofs.Text.Utf8
import Fixtures.Proofs.Manifest
import Fixtures.Proofs.Tree.Course
import Fixtures.Proofs.Tree.Growth
import Fixtures.Proofs.Tree.Provision
import Fixtures.Proofs.Tree.Replacement
import Fixtures.Proofs.Handle
import Fixtures.Proofs.Text.Hex
import Fixtures.Proofs.Tree.Above
import Fixtures.Proofs.Workspace.Scratch
import Fixtures.Proofs.Text.Quoted
import Fixtures.Proofs.Value.Printer
import Fixtures.Proofs.Producer.Display
import Fixtures.Proofs.Producer.Window
import Fixtures.Proofs.Producer.Search
import Fixtures.Proofs.Producer.Agreement
import Fixtures.Proofs.Producer.Feeding
import Fixtures.Proofs.Value.Denotation
import Fixtures.Proofs.Producer.Equality
import Fixtures.Proofs.Text.Blank
import Fixtures.Proofs.Path.NormalForm
import Fixtures.Proofs.Locator.Margins
import Fixtures.Proofs.Locator.Persistence
import Fixtures.Proofs.Tree.Ascent
import Fixtures.Proofs.Locator.Beside
import Fixtures.Proofs.Manifest.LineEnds
import Fixtures.Proofs.Manifest.Project
import Fixtures.Proofs.Producer.Construction
import Fixtures.Proofs.Tree.Digging
import Fixtures.Proofs.Tree.Occupation
import Fixtures.Proofs.Workspace.Preparation
