import ObjectModel.Bytes.Access
import ObjectModel.Config.Document
import ObjectModel.Config.Environment
import ObjectModel.Proofs.Bytes.Elements
import ObjectModel.Proofs.Definition
import ObjectModel.Proofs.Heap.IntegrityTest
import ObjectModel.Proofs.Key
import ObjectModel.Proofs.Machine.Accessors
import ObjectModel.Proofs.Machine.DictionaryPolicy
import ObjectModel.Proofs.Machine.FieldOrder
import ObjectModel.Proofs.Machine.Members
import ObjectModel.Proofs.Machine.Settings
import ObjectModel.Proofs.Machine.Termination
import ObjectModel.Proofs.Machine.Writing
import ObjectModel.Proofs.Proxy.KeyList
import ObjectModel.Proofs.Proxy.Reports
import ObjectModel.Proofs.Proxy.Tower
import ObjectModel.Proofs.Proxy.Transparency
import ObjectModel.Proofs.Shape.Invariant
import ObjectModel.Proofs.Shape.Sweeping
import ObjectModel.Proofs.Storage.History
import ObjectModel.Proofs.Storage.Refinement
import ObjectModel.Scenario.Run
