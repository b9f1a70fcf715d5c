import ScriptEngine.Builtin.Inspection
import ScriptEngine.Session.Basic
import ScriptEngine.Source.Builder
import ScriptEngine.Source.Outline
import ScriptEngine.Workbench.Basic
import ScriptEngine.Proofs.Accounting.Heap
import ScriptEngine.Proofs.Accounting.Crafting
import ScriptEngine.Proofs.Accounting.Scopes
import ScriptEngine.Proofs.Accounting.Ledger
import ScriptEngine.Proofs.Accounting.Balance
import ScriptEngine.Proofs.Custody.Triple
import ScriptEngine.Proofs.Custody.Operands
import ScriptEngine.Proofs.Custody.Walks
import ScriptEngine.Proofs.Custody.Builtins
import ScriptEngine.Proofs.Custody.Expressions
import ScriptEngine.Proofs.Custody.Statements
import ScriptEngine.Proofs.Custody.Calls
import ScriptEngine.Proofs.Custody.Runs
import ScriptEngine.Proofs.Control.Structured
import ScriptEngine.Proofs.Control.Signals
import ScriptEngine.Proofs.Control.Steady
import ScriptEngine.Proofs.Control.Refinement
import ScriptEngine.Proofs.Ownership.Certificate
import ScriptEngine.Proofs.Ownership.Separation
import ScriptEngine.Proofs.Ownership.Reachability
import ScriptEngine.Proofs.Control.Idle
import ScriptEngine.Proofs.Hosting.Sessions
import ScriptEngine.Proofs.Hosting.Accounts
import ScriptEngine.Proofs.Hosting.Workbenches
import ScriptEngine.Proofs.Hosting.Slots
import ScriptEngine.Proofs.Ownership.Unshared
import ScriptEngine.Proofs.Ownership.Guards
import ScriptEngine.Proofs.Ownership.Places
import ScriptEngine.Proofs.Hosting.Assignments
import ScriptEngine.Proofs.Control.Lockstep
import ScriptEngine.Proofs.Control.Approximation
import ScriptEngine.Proofs.Control.Stacks
import ScriptEngine.Proofs.Control.Encounters
import ScriptEngine.Proofs.Hosting.Stacks
import ScriptEngine.Proofs.Control.Backtraces
import ScriptEngine.Proofs.Hosting.Backtraces
import ScriptEngine.Proofs.Control.Blame
import ScriptEngine.Proofs.Ownership.Acyclicity
import ScriptEngine.Proofs.Hosting.Acyclicity
import ScriptEngine.Proofs.Control.Causes
import ScriptEngine.Proofs.Control.Limits
import ScriptEngine.Proofs.Hosting.Limits
import ScriptEngine.Proofs.Control.Alignment
import ScriptEngine.Proofs.Control.Orderliness
import ScriptEngine.Proofs.Hosting.Alignment
import ScriptEngine.Proofs.Ownership.Copies
import ScriptEngine.Proofs.Hosting.Pins
import ScriptEngine.Proofs.Source.Construction
import ScriptEngine.Proofs.Source.Types
import ScriptEngine.Proofs.Control.Settling
import ScriptEngine.Proofs.Control.Resolution
import ScriptEngine.Proofs.Control.Termination
import ScriptEngine.Proofs.Hosting.Termination
import ScriptEngine.Proofs.Ownership.Entries
import ScriptEngine.Proofs.Ownership.Sealing
import ScriptEngine.Proofs.Hosting.Keys
import ScriptEngine.Proofs.Ownership.Evolution
import ScriptEngine.Proofs.Hosting.Storing
import ScriptEngine.Proofs.Hosting.Blame
import ScriptEngine.Proofs.Control.Quiet
import ScriptEngine.Proofs.Control.Tracks
import ScriptEngine.Proofs.Ownership.Sprouts
import ScriptEngine.Proofs.Hosting.Remnants
import ScriptEngine.Proofs.Ownership.Contents
import ScriptEngine.Proofs.Ownership.Lookups
import ScriptEngine.Proofs.Ownership.Putting
import ScriptEngine.Proofs.Control.Performing
import ScriptEngine.Proofs.Control.Lengthening
import ScriptEngine.Proofs.Hosting.Trails
import ScriptEngine.Proofs.Hosting.Failing
import ScriptEngine.Proofs.Hosting.Retrieval
import ScriptEngine.Proofs.Abreast.Objects
import ScriptEngine.Proofs.Abreast.Reading
import ScriptEngine.Proofs.Abreast.Making
import ScriptEngine.Proofs.Abreast.Frames
import ScriptEngine.Proofs.Abreast.States
import ScriptEngine.Proofs.Abreast.Triple
import ScriptEngine.Proofs.Abreast.Operands
import ScriptEngine.Proofs.Ownership.Confinement
import ScriptEngine.Proofs.Ownership.Namesakes
import ScriptEngine.Proofs.Ownership.Paths
import ScriptEngine.Proofs.Ownership.Chains
import ScriptEngine.Proofs.Ownership.Updates
import ScriptEngine.Proofs.Ownership.Equivalence
import ScriptEngine.Proofs.Ownership.Accesses
import ScriptEngine.Proofs.Ownership.Assembly
import ScriptEngine.Proofs.Ownership.Snapshots
import ScriptEngine.Proofs.Control.Rounds
import ScriptEngine.Proofs.Hosting.Iterations
import ScriptEngine.Proofs.Abreast.Walks
import ScriptEngine.Proofs.Abreast.Literals
import ScriptEngine.Proofs.Ownership.Readings
import ScriptEngine.Proofs.Abreast.Indexing
import ScriptEngine.Proofs.Hosting.Indexing
import ScriptEngine.Proofs.Abreast.Places
import ScriptEngine.Proofs.Abreast.Statements
import ScriptEngine.Proofs.Abreast.Builtins
import ScriptEngine.Proofs.Abreast.Calls
import ScriptEngine.Proofs.Abreast.Cached
import ScriptEngine.Proofs.Abreast.Uncached
import ScriptEngine.Proofs.Abreast.Descriptions
import ScriptEngine.Proofs.Hosting.Companions
import ScriptEngine.Proofs.Hosting.Caching
import ScriptEngine.Proofs.Operation.Orders
import ScriptEngine.Proofs.Control.Blameless
import ScriptEngine.Proofs.Control.Splitting
import ScriptEngine.Proofs.Operation.Exactness
import ScriptEngine.Proofs.Hosting.Operands
import ScriptEngine.Proofs.Hosting.Calculations
import ScriptEngine.Proofs.Hosting.Conjunctions
import ScriptEngine.Proofs.Isolation.Resemblance
import ScriptEngine.Proofs.Isolation.Discretion
import ScriptEngine.Proofs.Isolation.Elevation
import ScriptEngine.Proofs.Isolation.Lifting
import ScriptEngine.Proofs.Isolation.Bodies
import ScriptEngine.Proofs.Isolation.Descent
import ScriptEngine.Proofs.Isolation.Seclusion
import ScriptEngine.Proofs.Isolation.Bareness
import ScriptEngine.Proofs.Isolation.Agreement
import ScriptEngine.Proofs.Isolation.Calls
import ScriptEngine.Proofs.Operation.Zeros
import ScriptEngine.Proofs.Operation.Casts
import ScriptEngine.Proofs.Operation.Conformity
import ScriptEngine.Proofs.Ownership.Sameness
import ScriptEngine.Proofs.Ownership.Duplicates
import ScriptEngine.Proofs.Ownership.Independence
import ScriptEngine.Proofs.Source.Interning
import ScriptEngine.Proofs.Hosting.Pieces
import ScriptEngine.Proofs.Ownership.Development
import ScriptEngine.Proofs.Control.Moments
import ScriptEngine.Proofs.Hosting.Development
import ScriptEngine.Proofs.Abreast.Ahead
import ScriptEngine.Proofs.Hosting.Purity
import ScriptEngine.Proofs.Hosting.Shadowing
