import MatrixCalculator.Main
import MatrixCalculator.Service
import MatrixCalculator.Workspace
import MatrixCalculator.Proofs.LinearSystem.Classification
import MatrixCalculator.Proofs.LinearSystem.Rank
import MatrixCalculator.Proofs.LinearSystem.Residual
import MatrixCalculator.Proofs.LinearSystem.Quotient
import MatrixCalculator.Proofs.Language.Exactness
import MatrixCalculator.Proofs.Language.EarliestFault
import MatrixCalculator.Proofs.Session.Concatenation
import MatrixCalculator.Proofs.Checked.Session
import MatrixCalculator.Proofs.Flat.Planar
import MatrixCalculator.Proofs.Console.History
import MatrixCalculator.Proofs.Console.Endurance
import MatrixCalculator.Proofs.FrontEnds
import MatrixCalculator.Proofs.Grid.Determinant
import MatrixCalculator.Proofs.Archive.Reloading
import MatrixCalculator.Proofs.DenseMatrix.Power
import MatrixCalculator.Proofs.LinearSystem.Parametrization
import MatrixCalculator.Proofs.Language.Tiling
import MatrixCalculator.Proofs.Language.Respacing
import MatrixCalculator.Proofs.Watched.Solution
import MatrixCalculator.Proofs.Session.Dependence
import MatrixCalculator.Proofs.Flat.Transposition
import MatrixCalculator.Proofs.Value.Factorial
import MatrixCalculator.Proofs.Value.FractionalPower
import MatrixCalculator.Proofs.Display.NegativeZero
import MatrixCalculator.Proofs.Flat.Product
import MatrixCalculator.Proofs.Tolerance.Betweenness
import MatrixCalculator.Proofs.LinearSystem.Walk
import MatrixCalculator.Proofs.Language.Termination
import MatrixCalculator.Proofs.DenseMatrix.PivotSearch
