import PageLookup.Glob.Language
import PageLookup.Glob.Link
import PageLookup.Glob.Place
import PageLookup.Glob.Scanner
import PageLookup.Glob.Written
import PageLookup.Listing
import PageLookup.Page
import PageLookup.Search
import PageLookup.Settings.Origin
import PageLookup.Settings.Location
import PageLookup.Standard.Basic
import PageLookup.Store.History
import PageLookup.Proofs.Glob.Fitting
import PageLookup.Proofs.Glob.Standing
import PageLookup.Proofs.Glob.Growth
import PageLookup.Proofs.Glob.Window
import PageLookup.Proofs.Glob.Compiled
import PageLookup.Proofs.Glob.Ground
import PageLookup.Proofs.Glob.Detour
import PageLookup.Proofs.Glob.Soundness
import PageLookup.Proofs.Glob.Exact
import PageLookup.Proofs.Glob.Shift
import PageLookup.Proofs.Glob.Splitting
import PageLookup.Proofs.Glob.Scanning
import PageLookup.Proofs.Store.Reading
import PageLookup.Proofs.Store.Histories
import PageLookup.Proofs.Store.Searching
import PageLookup.Proofs.Settings.Loading
import PageLookup.Proofs.Standard.Lawful
import PageLookup.Proofs.Settings.Layering
import PageLookup.Proofs.Glob.Linking
import PageLookup.Proofs.Glob.Placing
import PageLookup.Proofs.Glob.Failing
import PageLookup.Proofs.Glob.Writing
import PageLookup.Proofs.Glob.Shortest
import PageLookup.Proofs.Glob.Targets
import PageLookup.Proofs.Glob.Staying
import PageLookup.Fault
import PageLookup.Glob.Checked
import PageLookup.Proofs.Halving
import PageLookup.Proofs.Glob.Faultless
import PageLookup.Proofs.Glob.Spelling
import PageLookup.Proofs.Glob.Arcs
import PageLookup.Proofs.Glob.Renaming
import PageLookup.Proofs.Glob.Sparse
import PageLookup.Proofs.Store.Emptiness
import PageLookup.Proofs.Store.Entering
import PageLookup.Proofs.Store.Listing
import PageLookup.Proofs.Store.Canonical
import PageLookup.Proofs.Settings.Failing
import PageLookup.Proofs.Glob.Border
import PageLookup.Proofs.Settings.Inlining
import PageLookup.Proofs.Settings.Defaulting
