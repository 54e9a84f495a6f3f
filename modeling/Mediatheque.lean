import Mediatheque.Backend.Basic
import Mediatheque.Backend.Behaviour
import Mediatheque.Backend.Claim
import Mediatheque.Backend.Scripted
import Mediatheque.Barrier
import Mediatheque.Bus.Endpoint
import Mediatheque.Bus.Hub
import Mediatheque.Bus.Named
import Mediatheque.Bus.Sink
import Mediatheque.Cache.DirectoryCache
import Mediatheque.Cache.ObjectCache
import Mediatheque.Catalog.Basic
import Mediatheque.Catalog.Folder
import Mediatheque.Catalog.Json
import Mediatheque.Catalog.Resolution
import Mediatheque.CommandLine.Invocation
import Mediatheque.CommandLine.Run
import Mediatheque.CommandLine.Usage
import Mediatheque.CommandLine.Value
import Mediatheque.Database.Basic
import Mediatheque.Database.Client
import Mediatheque.Database.Closing
import Mediatheque.Database.Machine
import Mediatheque.Database.Opening
import Mediatheque.Dictionary
import Mediatheque.Disk.Basic
import Mediatheque.Disk.Path
import Mediatheque.Disk.Standard
import Mediatheque.Dispatcher.Basic
import Mediatheque.Dispatcher.Command
import Mediatheque.Dispatcher.Report
import Mediatheque.Dispatcher.Turn
import Mediatheque.Error
import Mediatheque.Export.Rewriting
import Mediatheque.Export.Table
import Mediatheque.Fault
import Mediatheque.Json.Access
import Mediatheque.Json.Printer
import Mediatheque.Json.Reader
import Mediatheque.Json.Record
import Mediatheque.Json.Value
import Mediatheque.Media.Acceptance
import Mediatheque.Media.Class
import Mediatheque.Media.Container
import Mediatheque.Media.Container.Json
import Mediatheque.Media.Parameter
import Mediatheque.Media.Parameter.Json
import Mediatheque.Media.Presentation
import Mediatheque.Media.Source
import Mediatheque.Message.Command
import Mediatheque.Message.Event
import Mediatheque.Message.Json
import Mediatheque.Number.Binary64
import Mediatheque.Number.Shortest
import Mediatheque.ObjectId
import Mediatheque.Registry.Basic
import Mediatheque.Registry.Persister
import Mediatheque.Settings.Basic
import Mediatheque.Text.Affix
import Mediatheque.Text.Digits
import Mediatheque.Text.Duration
import Mediatheque.Text.Fields
import Mediatheque.Text.Glob
import Mediatheque.Text.Percent
import Mediatheque.Text.Sha256
import Mediatheque.Toml.Draft
import Mediatheque.Toml.Moment
import Mediatheque.Toml.Printer
import Mediatheque.Toml.Reader
import Mediatheque.Toml.Value
import Mediatheque.Url.Basic
import Mediatheque.Url.Host
import Mediatheque.Url.Ipv4
import Mediatheque.Url.Ipv6
import Mediatheque.Url.Punycode
import Mediatheque.Main
import Mediatheque.Proofs.Catalog.Order
import Mediatheque.Proofs.Catalog.Merge
import Mediatheque.Proofs.Catalog.Listing
import Mediatheque.Proofs.Catalog.Walk
import Mediatheque.Proofs.Catalog.Offsets
import Mediatheque.Proofs.Catalog.Slices
import Mediatheque.Proofs.Catalog.Distinct
import Mediatheque.Proofs.Catalog.Parts
import Mediatheque.Proofs.Disk.Course
import Mediatheque.Proofs.Export.Confinement
import Mediatheque.Proofs.Media.Bare
import Mediatheque.Proofs.Dispatcher.Edits
import Mediatheque.Proofs.Dispatcher.Requests
import Mediatheque.Proofs.Dispatcher.Run
import Mediatheque.Proofs.Dispatcher.Mirror
import Mediatheque.Proofs.Dispatcher.Exchange
import Mediatheque.Proofs.Dispatcher.Rescan
import Mediatheque.Proofs.Dispatcher.Faults
import Mediatheque.Proofs.Dispatcher.Routing
import Mediatheque.Proofs.Dispatcher.Disclosure
import Mediatheque.Proofs.Disk.Files
import Mediatheque.Proofs.Registry.Keeping
import Mediatheque.Proofs.Export.Settings
import Mediatheque.Proofs.Dispatcher.Duties
import Mediatheque.Proofs.Database.Opening
import Mediatheque.Proofs.Database.Restart
import Mediatheque.Proofs.Dispatcher.Turn
import Mediatheque.Proofs.Dispatcher.Service
import Mediatheque.Proofs.Disk.Clearing
import Mediatheque.Proofs.Catalog.Naming
import Mediatheque.Proofs.Dispatcher.Answers
import Mediatheque.Proofs.Export.Addresses
import Mediatheque.Proofs.Dispatcher.Announcements
import Mediatheque.Proofs.Json.Record
import Mediatheque.Proofs.Media.Lossless
import Mediatheque.Proofs.Message.Lossless
import Mediatheque.Proofs.Toml.Spelling
import Mediatheque.Proofs.Toml.Strings
import Mediatheque.Proofs.Toml.Numbers
import Mediatheque.Proofs.Toml.Values
import Mediatheque.Proofs.Toml.Document
import Mediatheque.Proofs.Registry.Text
import Mediatheque.Proofs.Export.Access
import Mediatheque.Proofs.Dispatcher.Asking
import Mediatheque.Proofs.Bus.Sink
import Mediatheque.Proofs.Bus.Hub
import Mediatheque.Proofs.Bus.Traffic
import Mediatheque.Proofs.Bus.Delivery
import Mediatheque.Proofs.Bus.Operations
import Mediatheque.Proofs.Dispatcher.Creation
import Mediatheque.Proofs.Database.Turns
import Mediatheque.Proofs.Database.Creation
import Mediatheque.Proofs.Database.Waiting
import Mediatheque.Proofs.Cache.Shelf
import Mediatheque.Proofs.Barrier.Course
import Mediatheque.Proofs.Dispatcher.Refusals
import Mediatheque.Proofs.Dispatcher.Storing
import Mediatheque.Proofs.CommandLine.Saving
import Mediatheque.Proofs.Export.Removal
import Mediatheque.Proofs.Catalog.Editing
import Mediatheque.Proofs.Disk.Standing
import Mediatheque.Proofs.Dispatcher.Reach
import Mediatheque.Proofs.Database.Work
import Mediatheque.Proofs.Database.Happenings
import Mediatheque.Proofs.Database.Life
import Mediatheque.Proofs.Database.Closing
import Mediatheque.Proofs.Database.Lifecycle
import Mediatheque.Proofs.Database.Holding
import Mediatheque.Proofs.Database.Exclusion
import Mediatheque.Proofs.Bus.Pass
import Mediatheque.Proofs.Export.RoundTrip
import Mediatheque.Proofs.Catalog.Counts
import Mediatheque.Proofs.Catalog.Redress
import Mediatheque.Proofs.Catalog.Pages
import Mediatheque.Proofs.Catalog.Locality
import Mediatheque.Proofs.Catalog.Arrangement
import Mediatheque.Proofs.Bus.Calls
import Mediatheque.Proofs.Bus.Subscriptions
import Mediatheque.Proofs.Bus.Hearing
import Mediatheque.Proofs.Bus.Correlation
import Mediatheque.Proofs.Database.Calling
import Mediatheque.Proofs.Export.Appending
import Mediatheque.Proofs.Export.Withdrawal
import Mediatheque.Proofs.Text.Glob
import Mediatheque.Proofs.Media.Acceptance
import Mediatheque.Proofs.Dispatcher.Devices
import Mediatheque.Proofs.Dispatcher.DeviceList
import Mediatheque.Proofs.ObjectId.Ancestors
import Mediatheque.Proofs.Json.Spelling
import Mediatheque.Proofs.Json.Texts
import Mediatheque.Proofs.Json.Numbers
import Mediatheque.Proofs.Json.Values
import Mediatheque.Proofs.CommandLine.Value
import Mediatheque.Proofs.Media.Names
import Mediatheque.Proofs.Catalog.Classes
import Mediatheque.Proofs.Settings.Layers
