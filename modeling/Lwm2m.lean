import Lwm2m.Basic
import Lwm2m.Library.Run
import Lwm2m.Library.Except
import Lwm2m.Library.Focus
import Lwm2m.Library.Reassembly
import Lwm2m.Library.Decimal
import Lwm2m.Library.SideBySide
import Lwm2m.Library.Memory
import Lwm2m.Coap.Block
import Lwm2m.Coap.Reassembly
import Lwm2m.Coap.BlockLookup
import Lwm2m.Coap.Packet
import Lwm2m.Coap.Parse
import Lwm2m.Coap.Bounds
import Lwm2m.Coap.Serialize
import Lwm2m.Coap.RoundTrip
import Lwm2m.Coap.Setters
import Lwm2m.Coap.LocationQuery
import Lwm2m.Coap.SizeBound
import Lwm2m.Coap.MessageRoundTrip
import Lwm2m.Core.Context
import Lwm2m.Core.Servers
import Lwm2m.Core.Observe
import Lwm2m.Core.Registration
import Lwm2m.Core.Uri
import Lwm2m.Core.Bootstrap
import Lwm2m.Core.BootstrapWrite
import Lwm2m.Core.BootstrapFinish
import Lwm2m.Core.Management
import Lwm2m.Core.Request
import Lwm2m.Core.Client
import Lwm2m.Core.Dispatch
import Lwm2m.Core.Watchers
import Lwm2m.Core.Attributes
import Lwm2m.Core.Notification
import Lwm2m.Core.Attach
import Lwm2m.Core.ServerMirror
import Lwm2m.Core.ServerObservations
import Lwm2m.Core.ServerReferences
import Lwm2m.Core.Transaction
import Lwm2m.Core.Response
import Lwm2m.Core.ResponseSafety
import Lwm2m.Core.NextRequest
import Lwm2m.Core.BlockTransfer
import Lwm2m.Core.Retransmission
import Lwm2m.Core.SeparateResponse
import Lwm2m.Core.TransactionMemory
import Lwm2m.Core.InstanceMemory
import Lwm2m.Core.BackupObjects
import Lwm2m.Core.Rollback
import Lwm2m.Core.ObserveFailure
import Lwm2m.Core.Cancellation
import Lwm2m.Core.SharedMessage
import Lwm2m.Core.RequestClone
import Lwm2m.Core.ReadAttributes
import Lwm2m.Library.SharedOwnership
import Lwm2m.Core.RegistrationMemory
import Lwm2m.Core.RegistrationReply
import Lwm2m.Core.RegistrationData
import Lwm2m.Codec.TlvWellFormed
import Lwm2m.Codec.TlvRoundTrip
import Lwm2m.Library.Separators
import Lwm2m.Core.TransferKey
import Lwm2m.Core.LastBlock
import Lwm2m.Core.BlockUpload
import Lwm2m.Core.BootstrapAcknowledge
import Lwm2m.Core.ReadBack
import Lwm2m.Core.BlockServing
import Lwm2m.Core.EffectiveAttributes
import Lwm2m.Core.RetryBound
import Lwm2m.Pivot.PivotRecord
import Lwm2m.Core.BootstrapWindow
import Lwm2m.Core.SnapInstances
import Lwm2m.Core.ObservedMemory
import Lwm2m.Core.ObservedShape
import Lwm2m.Core.BindingText
import Lwm2m.Core.RegistrationParameters
import Lwm2m.Core.RegistrationOrder
import Lwm2m.Core.RegistrationTurns
import Lwm2m.Core.ClientList
import Lwm2m.Core.LatestIntention
import Lwm2m.Core.ServerNotification
import Lwm2m.Core.SnapControl
import Lwm2m.Core.ServerLocation
import Lwm2m.Core.ObjectDelete
import Lwm2m.Core.ResourceTypes
import Lwm2m.Coap.BlockMemory
import Lwm2m.Core.WriteAttributes
import Lwm2m.Codec.JsonTree
import Lwm2m.Codec.UriDescent
import Lwm2m.Codec.UriRecords
import Lwm2m.Codec.RecordTree
import Lwm2m.Core.UriText
import Lwm2m.Core.RequestRecords
import Lwm2m.Core.RequestOwnership
import Lwm2m.Core.RequestCalls
import Lwm2m.Library.Levels
import Lwm2m.Core.ChangedUri
import Lwm2m.Core.RequestPath
import Lwm2m.Core.GetServers
import Lwm2m.Core.RegistrationTiming
import Lwm2m.Library.BoundedText
import Lwm2m.Core.RegistrationSizes
import Lwm2m.Library.Fuel
import Lwm2m.Core.BootstrapDelete
import Lwm2m.Core.SnapReaders
import Lwm2m.Core.ResponseFormat
import Lwm2m.Library.JsonText
import Lwm2m.Library.RoomText
import Lwm2m.Codec.SenmlText
import Lwm2m.Codec.SenmlSerialize
import Lwm2m.Codec.SenmlComplete
import Lwm2m.Core.Buffer
import Lwm2m.Core.NumberText
import Lwm2m.Core.NumberBuffer
import Lwm2m.Codec.Base64
import Lwm2m.Codec.TlvNumbers
import Lwm2m.Codec.TextFormat
import Lwm2m.Core.PreSharedKey
import Lwm2m.Codec.DataStrip
import Lwm2m.Codec.JsonScan
import Lwm2m.Codec.JsonMembers
import Lwm2m.Codec.SenmlItem
import Lwm2m.Codec.ItemGrammar
import Lwm2m.Core.QueryRoundTrip
import Lwm2m.Library.Chain
import Lwm2m.Core.SortedList
