import FeedForward.Config.Value
import FeedForward.Registry

/-!
# Presets

Configurations that are ready to run, by name. Each has a section for its data set, one
for its network and one for its training run.
-/

namespace FeedForward.Preset

/-- A layer of a configured network; the input layer has no activation. -/
def layer (size : Int) (activation : Option String) : Value :=
  .object (("size", .integer size) ::
    (activation.map fun name => ("activation", Value.text name)).toList)

/-- The section of a data set. -/
def data (name : String) (options : List (String × Int)) : Value :=
  .object [("name", .text name),
    ("options", .object (options.map fun option => (option.1, .integer option.2)))]

/-- The section of a training run, which keeps its files in a directory of its own. -/
def train (name : String) (epochs batchSize seed : Int) : Value :=
  .object [("epochs", .integer epochs), ("batch_size", .integer batchSize),
    ("seed", .integer seed), ("run_dir", .text ("runs/" ++ name)), ("enable_plots", .bool false)]

/-- A whole configuration. -/
def config (data : Value) (model : List (String × Value)) (train : Value) : Value :=
  .object [("data", data), ("model", .object model), ("train", train)]

/-- A small network that learns the exclusive or. -/
def xorNetwork : Value :=
  config (data "xor" [])
    [("layers", .list [layer 2 none, layer 4 "sigmoid", layer 1 "sigmoid"]),
      ("learning_rate", .number 0.5), ("momentum_weight", .number 0.1),
      ("cost", .text "squared_error")]
    (train "xor-mlp" 3000 1 7)

/-- A straight line through noisy points. -/
def linearRegression : Value :=
  config (data "linear" [("n_points", 64), ("seed", 0)])
    [("layers", .list [layer 1 none, layer 1 "identity"]), ("learning_rate", .number 0.05),
      ("cost", .text "squared_error")]
    (train "linear-regression" 50 1 0)

/-- A network that reproduces unit vectors through a narrow layer. -/
def autoencoder : Value :=
  config (data "one_hot" [("dim", 4), ("repeats", 4)])
    [("layers", .list [layer 4 none, layer 3 "sigmoid", layer 4 "sigmoid"]),
      ("learning_rate", .number 0.5), ("momentum_weight", .number 0.2),
      ("cost", .text "cross_entropy"), ("learning_style", .text "unsupervised")]
    (train "autoencoder" 400 1 3)

/-- A classifier of clusters. -/
def softmaxBlobs : Value :=
  config (data "blobs" [("n_per_class", 16), ("n_classes", 3), ("seed", 1)])
    [("layers", .list [layer 2 none, layer 8 "tanh", layer 3 "softmax"]),
      ("learning_rate", .number 0.1), ("momentum_weight", .number 0.1),
      ("cost", .text "categorical_cross_entropy")]
    (train "softmax-blobs" 60 4 11)

/-- The presets by name. -/
def registry : Registry Value where
  role := .preset
  fold := id
  entries := [("xor-mlp", xorNetwork), ("linear-regression", linearRegression),
    ("autoencoder", autoencoder), ("softmax-blobs", softmaxBlobs)]

end FeedForward.Preset
