import CardGuru.Lib.Entries
import CardGuru.Lib.KeyTree
import CardGuru.Lib.Run
import CardGuru.Firebase.Key
import CardGuru.Firebase.Database
import CardGuru.Model.Card
import CardGuru.Firebase.Server
import CardGuru.Services.DatabaseService
import CardGuru.Controller.HomeViewController
import CardGuru.Controller.DetailedViewController
import CardGuru.App.State
import CardGuru.App.Step
import CardGuru.App.Inversion
import CardGuru.App.Requests
import CardGuru.App.Scenario
import CardGuru.Proofs.DeletedCards
import CardGuru.App.Uploads
import CardGuru.Proofs.AccountWrites
import CardGuru.Proofs.LastSave
import CardGuru.Proofs.FailedEdit
import CardGuru.Model.CardList
import CardGuru.App.Views
import CardGuru.Proofs.HomeList
import CardGuru.App.Objects
import CardGuru.Proofs.AddedCards
import CardGuru.Proofs.StoredPictures
import CardGuru.Proofs.AccountIsolation
import CardGuru.Session.Answers
import CardGuru.Session.State
import CardGuru.Session.Step
import CardGuru.Session.Presenting
import CardGuru.Proofs.SignedInUser
import CardGuru.Proofs.TouchLock
import CardGuru.HomeScreen.State
import CardGuru.HomeScreen.Step
import CardGuru.HomeScreen.Rows
import CardGuru.Proofs.RowAccess
import CardGuru.Proofs.SearchResults
import CardGuru.Proofs.CellLabels
import CardGuru.Proofs.EditedImages
import CardGuru.Lib.Latest
import CardGuru.Proofs.WriteHistory
import CardGuru.Model.CardBatch
import CardGuru.App.BatchWrites
import CardGuru.Proofs.DisjointOperations
import CardGuru.App.Delegate
import CardGuru.Proofs.LastCard
import CardGuru.Services.PathValidation
import CardGuru.Proofs.ValidPaths
import CardGuru.Proofs.BarcodePicture
import CardGuru.Lib.Callback
import CardGuru.Session.SignIns
import CardGuru.Proofs.SignInAnswers
import CardGuru.Proofs.ListPlaceholder
import CardGuru.Lib.Counting
import CardGuru.Extensions.CGImage
import CardGuru.Proofs.DarkPicture
import CardGuru.Proofs.PixelReads
import CardGuru.Scanner.State
import CardGuru.Scanner.Step
import CardGuru.Proofs.CameraRuns
import CardGuru.Lib.Digits
import CardGuru.Firebase.NextPushId
import CardGuru.Lib.TreeValues
import CardGuru.Lib.Layers
import CardGuru.Lib.Assign
import CardGuru.Lib.Overwrites
import CardGuru.Firebase.ImmutableTree
import CardGuru.Firebase.CompoundWrite
import CardGuru.Firebase.WriteChanges
import CardGuru.Firebase.WriteTree
import CardGuru.Firebase.LayeredWrites
import CardGuru.Lib.Resend
import CardGuru.Firebase.PersistentConnection
import CardGuru.Firebase.Repo
import CardGuru.Firebase.Scenario
import CardGuru.Firebase.Pipeline
import CardGuru.Firebase.Answers
import CardGuru.Firebase.ShownNodes
import CardGuru.Proofs.PendingWrites
import CardGuru.Proofs.SavedWrites
import CardGuru.Proofs.SentWrites
import CardGuru.Proofs.ResentWrites
import CardGuru.Proofs.DeliveredWrites
import CardGuru.Firebase.LLRBNode
import CardGuru.Firebase.LLRBBalance
import CardGuru.Firebase.LLRBRemoval
import CardGuru.Firebase.LLRBContents
import CardGuru.Firebase.TreeSortedDictionary
import CardGuru.Firebase.TreeBuilder
import CardGuru.Lib.Enumerate
import CardGuru.Firebase.TreeEnumerator
import CardGuru.Firebase.SortedDictionary
import CardGuru.Firebase.DictionaryContents
import CardGuru.Firebase.DictionaryWalks
import CardGuru.Proofs.SortedDictionaries
import CardGuru.Firebase.SnapshotNode
import CardGuru.Proofs.StoredNodes
