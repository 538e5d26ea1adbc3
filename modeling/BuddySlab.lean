import BuddySlab.Alignment
import BuddySlab.Size
import BuddySlab.Console
import BuddySlab.Pool
import BuddySlab.Heap
import BuddySlab.SelfTest
import BuddySlab.Script
import BuddySlab.Proofs.Geometry
import BuddySlab.Proofs.Threads
import BuddySlab.Proofs.Tiling
import BuddySlab.Proofs.PageTier
import BuddySlab.Proofs.Patch
import BuddySlab.Proofs.SlabPage
import BuddySlab.Proofs.ObjectTier
import BuddySlab.Proofs.Sizes
import BuddySlab.Proofs.Chart
import BuddySlab.Proofs.Depiction
import BuddySlab.Proofs.Separation
import BuddySlab.Proofs.Observation
import BuddySlab.Proofs.Emission
import BuddySlab.Proofs.Runs
import BuddySlab.Proofs.Ownership
import BuddySlab.Proofs.Isolation
import BuddySlab.Proofs.Vacancy
import BuddySlab.Proofs.Refusals
import BuddySlab.Proofs.Contents
import BuddySlab.Proofs.Service
import BuddySlab.Proofs.FreeLists
import BuddySlab.Proofs.Stacks
import BuddySlab.Proofs.Twins
import BuddySlab.Proofs.RoundTrip
import BuddySlab.Proofs.Oblivious
import BuddySlab.Proofs.Reentrance
import BuddySlab.Proofs.Tenancy
import BuddySlab.Proofs.Routing
import BuddySlab.Proofs.Peaks
import BuddySlab.Proofs.Cover
import BuddySlab.Proofs.Layout
import BuddySlab.Proofs.Translation
import BuddySlab.Proofs.Ranges
import BuddySlab.Proofs.Marks
import BuddySlab.Proofs.Trials
import BuddySlab.Proofs.Checks
import BuddySlab.Proofs.SlabChecks
import BuddySlab.Proofs.SelfTests
import BuddySlab.Proofs.GivenBack
import BuddySlab.Proofs.Rounding
import BuddySlab.Proofs.Lookup
import BuddySlab.Proofs.Carving
import BuddySlab.Proofs.Lines
import BuddySlab.Proofs.Journal
import BuddySlab.Proofs.Emission
