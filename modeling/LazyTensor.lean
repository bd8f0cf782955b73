import LazyTensor.Console.Respond
import LazyTensor.Proofs.Number.Rounding
import LazyTensor.Proofs.Graph.NormalForm
import LazyTensor.Proofs.Graph.FirstMatch
import LazyTensor.Proofs.Device.Recycling
import LazyTensor.Proofs.Layout.Merging
import LazyTensor.Proofs.Linear.Reordering
import LazyTensor.Proofs.Profile.Packing
import LazyTensor.Proofs.Schedule.Order
import LazyTensor.Proofs.Schedule.Padding
import LazyTensor.Proofs.Tensor.Factors
import LazyTensor.Proofs.Tensor.Triangles
import LazyTensor.Proofs.Tensor.Windows
import LazyTensor.Proofs.Lower.Quotients
import LazyTensor.Proofs.Session.Programs
import LazyTensor.Proofs.Tensor.Layouts
import LazyTensor.Proofs.Tensor.ReduceView
