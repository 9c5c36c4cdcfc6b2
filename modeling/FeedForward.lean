import FeedForward.Config.File
import FeedForward.Config.Preset
import FeedForward.ModelFile
import FeedForward.Network.HeldStream
import FeedForward.Run
import FeedForward.Proofs.Gradient.Backpropagation
import FeedForward.Proofs.Gradient.Softmax
import FeedForward.Proofs.ModelFile.Format
import FeedForward.Proofs.Session.Batch
import FeedForward.Proofs.ModelFile.Canonical
import FeedForward.Proofs.Session.Epochs
import FeedForward.Proofs.Session.Run
import FeedForward.Proofs.Lockstep
import FeedForward.Proofs.Lockstep.Units
import FeedForward.Proofs.Network.Stretched
import FeedForward.Proofs.Lockstep.Layers
import FeedForward.Proofs.Lockstep.Passes
import FeedForward.Proofs.Network.Memory
import FeedForward.Proofs.Numeric.Fraction
import FeedForward.Proofs.Lockstep.Twins
import FeedForward.Proofs.Session.Twins
import FeedForward.Proofs.Network.Restoring
import FeedForward.Proofs.Session.Online
import FeedForward.Proofs.ModelFile.Checkpoint
import FeedForward.Proofs.Network.Asides
import FeedForward.Proofs.Session.WholeEpochs
import FeedForward.Proofs.Network.Lasting
import FeedForward.Proofs.Session.Failure
import FeedForward.Proofs.Network.Coherence
import FeedForward.Proofs.Network.Rest
import FeedForward.Proofs.Session.Coherence
import FeedForward.Proofs.ModelFile.Stream
import FeedForward.Proofs.Run
import FeedForward.Proofs.Session.Patience
import FeedForward.Proofs.Dense.Dropout
import FeedForward.Proofs.Network.Refusals
import FeedForward.Proofs.Dense.Distribution
import FeedForward.Proofs.Session.Ledger
import FeedForward.Proofs.Report.Columns
import FeedForward.Proofs.Config.Build
import FeedForward.Proofs.Network.Lookups
import FeedForward.Proofs.Dataset
import FeedForward.Proofs.Gradient.CrossEntropy
import FeedForward.Proofs.Neuron.Buffer
