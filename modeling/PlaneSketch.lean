import PlaneSketch.Diagnosis
import PlaneSketch.Diagnosis.Report
import PlaneSketch.LeastSquares.LevenbergMarquardt
import PlaneSketch.Proofs.Finite
import PlaneSketch.Proofs.Reachable
import PlaneSketch.Proofs.Agreement
import PlaneSketch.Proofs.Gates
import PlaneSketch.Proofs.Classification
import PlaneSketch.Proofs.Exact
import PlaneSketch.Proofs.Measured
import PlaneSketch.Proofs.Certain
import PlaneSketch.Proofs.Totals
import PlaneSketch.Proofs.References
import PlaneSketch.Proofs.Invisible
import PlaneSketch.Proofs.LeftOut
import PlaneSketch.Proofs.Removal
import PlaneSketch.Proofs.Implied
import PlaneSketch.Proofs.Members
import PlaneSketch.Proofs.Overlaps
import PlaneSketch.Proofs.Consistency
import PlaneSketch.Proofs.Descent
import PlaneSketch.Proofs.Budget
import PlaneSketch.Proofs.Irreducible
import PlaneSketch.Proofs.AxisFit
import PlaneSketch.Proofs.Listing
import PlaneSketch.Proofs.Targets
import PlaneSketch.Proofs.Fixing
import PlaneSketch.Proofs.View
import PlaneSketch.Proofs.Proposals
import PlaneSketch.Proofs.Acceptance
import PlaneSketch.Proofs.Headroom
import PlaneSketch.Proofs.Fitness
import PlaneSketch.Proofs.Counting
import PlaneSketch.Proofs.Locating
import PlaneSketch.Proofs.Memoryless
import PlaneSketch.Proofs.Aggregates
import PlaneSketch.Proofs.Euclid
import PlaneSketch.Proofs.Relations
import PlaneSketch.Proofs.Refusals
import PlaneSketch.Proofs.Tally
import PlaneSketch.Proofs.Ending
import PlaneSketch.Proofs.Steady
import PlaneSketch.Proofs.Nearest
import PlaneSketch.Proofs.Swapping
import PlaneSketch.Proofs.Tables
import PlaneSketch.Proofs.AnyOrder
import PlaneSketch.Proofs.AllOrNothing
import PlaneSketch.Proofs.Component
import PlaneSketch.LeastSquares.InPlace
import PlaneSketch.Proofs.Probing
import PlaneSketch.Solve.InPlace
import PlaneSketch.Proofs.WorkingCopy
