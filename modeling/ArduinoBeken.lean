import ArduinoBeken.Library.Run
import ArduinoBeken.Library.Polling
import ArduinoBeken.BLE.Characteristic
import ArduinoBeken.BLE.GattRegistry
import ArduinoBeken.BLE.Frame
import ArduinoBeken.BLE.ValueHistory
import ArduinoBeken.BLE.Subscription
import ArduinoBeken.BLE.LegacyTables
import ArduinoBeken.BLE.EthermindPass
import ArduinoBeken.BLE.LegacyPass
import ArduinoBeken.BLE.Finalize
import ArduinoBeken.BLE.CommandWait
import ArduinoBeken.BLE.LocalDevice
import ArduinoBeken.Net.WiFiClient
import ArduinoBeken.Tls.SslClient
import ArduinoBeken.Library.Stages
import ArduinoBeken.Tls.SecureClient
import ArduinoBeken.Tls.Calls
import ArduinoBeken.Tls.StartStages
import ArduinoBeken.Tls.TrustPolicy
import ArduinoBeken.Tls.FailedConnect
import ArduinoBeken.Tls.ReceiveStream
import ArduinoBeken.Library.Ownership
import ArduinoBeken.Net.SocketConduct
import ArduinoBeken.Net.SocketOwnership
import ArduinoBeken.Library.Placement
import ArduinoBeken.Tools.PythonText
import ArduinoBeken.Tools.FlashImage
import ArduinoBeken.Tools.PartitionTable
import ArduinoBeken.Tools.UploadSize
import ArduinoBeken.Library.Search
import ArduinoBeken.Http.ArduinoText
import ArduinoBeken.Http.Cookies
import ArduinoBeken.Http.SetCookie
import ArduinoBeken.Http.CookieLaw
import ArduinoBeken.Library.Arrivals
import ArduinoBeken.Http.HttpClient
import ArduinoBeken.Http.Response
import ArduinoBeken.Http.Body
import ArduinoBeken.Http.ChunkedBody
import ArduinoBeken.Http.Head
import ArduinoBeken.Http.BodyLength
import ArduinoBeken.Http.KeepAlive
import ArduinoBeken.Http.Url
import ArduinoBeken.Http.Request
import ArduinoBeken.Http.HeaderBlock
import ArduinoBeken.Http.Targets
import ArduinoBeken.Http.HeaderSteps
import ArduinoBeken.Http.RequestFraming
import ArduinoBeken.Http.CredentialScope
import ArduinoBeken.Http.Opened
import ArduinoBeken.Http.Leftovers
import ArduinoBeken.Http.ConnectionTarget
import ArduinoBeken.Http.CookieSteps
import ArduinoBeken.Http.CookieScope
import ArduinoBeken.WiFi.Server
import ArduinoBeken.WiFi.Mode
import ArduinoBeken.WiFi.Udp
import ArduinoBeken.WiFi.UdpReceive
import ArduinoBeken.WiFi.UdpSend
import ArduinoBeken.Wire.TwoWire
import ArduinoBeken.Wire.Buffers
import ArduinoBeken.Wire.SlavePairing
import ArduinoBeken.Wire.Lifecycle
import ArduinoBeken.WiFi.StaticIp
import ArduinoBeken.WiFi.Scan
import ArduinoBeken.WiFi.EventDispatch
import ArduinoBeken.Library.CppText
import ArduinoBeken.Tools.SketchPrep
import ArduinoBeken.Tools.PrototypePlace
import ArduinoBeken.Core.GpioInterrupt
import ArduinoBeken.Core.Ticker
import ArduinoBeken.Core.HardwareTimer
import ArduinoBeken.Library.BoundedQueue
import ArduinoBeken.Core.HardwareSerial
import ArduinoBeken.Core.SerialQueue
import ArduinoBeken.Core.SerialAccesses
import ArduinoBeken.BLE.ValueBuffers
import ArduinoBeken.BLE.PeerWrites
import ArduinoBeken.BLE.WriteValue
import ArduinoBeken.Library.LengthFields
import ArduinoBeken.BLE.AdvertisingPayload
import ArduinoBeken.BLE.AdvertisingState
import ArduinoBeken.Tls.HostName
import ArduinoBeken.Tls.Fingerprint
import ArduinoBeken.Library.Halving
import ArduinoBeken.Tls.CrtBundle
import ArduinoBeken.WiFi.Multi
import ArduinoBeken.Library.KeyedList
import ArduinoBeken.Http.HeaderMap
import ArduinoBeken.Http.UrlRoundTrip
import ArduinoBeken.Http.Redirects
import ArduinoBeken.Http.BlockCopy
import ArduinoBeken.Http.Transport
import ArduinoBeken.Http.Exchange
import ArduinoBeken.Http.ErrorExits
import ArduinoBeken.Http.HeadLaw
import ArduinoBeken.Net.WriteLoop
import ArduinoBeken.Tls.SecureWrite
import ArduinoBeken.Library.ByteOrder
import ArduinoBeken.Library.Arena
import ArduinoBeken.Net.Endpoint
import ArduinoBeken.WiFi.UdpObject
import ArduinoBeken.WiFi.UdpResources
import ArduinoBeken.WiFi.EndpointLaw
import ArduinoBeken.Library.Crc
import ArduinoBeken.Tools.CrcExpansion
import ArduinoBeken.Tools.SizeText
import ArduinoBeken.Tools.OtaTable
import ArduinoBeken.Tools.TableAcceptance
import ArduinoBeken.Library.FileTree
import ArduinoBeken.Tools.PythonPath
import ArduinoBeken.Tools.LinkExport
import ArduinoBeken.Tools.LinkPlan
import ArduinoBeken.Tools.LinkExportLaw
import ArduinoBeken.Library.CheckedBytes
import ArduinoBeken.Library.DnsMessage
import ArduinoBeken.Library.Cutting
import ArduinoBeken.Dns.NameText
import ArduinoBeken.Dns.Server
import ArduinoBeken.Dns.Scans
import ArduinoBeken.Dns.ReplyWrites
import ArduinoBeken.Dns.RequestSafety
import ArduinoBeken.Dns.Replies
import ArduinoBeken.Library.TimedReads
import ArduinoBeken.Library.PrefixMatch
import ArduinoBeken.Core.Stream
import ArduinoBeken.Core.Print
import ArduinoBeken.Library.Base64
import ArduinoBeken.Core.Base64Encoder
import ArduinoBeken.Websocket.BasicAuth
import ArduinoBeken.Core.IpAddress
import ArduinoBeken.Core.AddressText
import ArduinoBeken.Library.MqttPackets
import ArduinoBeken.Library.PlacedBytes
import ArduinoBeken.Mqtt.PubSubClient
import ArduinoBeken.Mqtt.WrittenPackets
import ArduinoBeken.Mqtt.ReadPackets
import ArduinoBeken.Mqtt.Session
import ArduinoBeken.Mqtt.Delivery
import ArduinoBeken.Mqtt.AnyBroker
import ArduinoBeken.Websocket.SentMessages
import ArduinoBeken.Websocket.PingsBetween
