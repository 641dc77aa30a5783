import RdpMcp.Session.Finished
import RdpMcp.Session.WordSize
import RdpMcp.Preview.Viewer
import RdpMcp.Worker.Codec
import RdpMcp.Worker.Gate
import RdpMcp.Worker.Framing
import RdpMcp.Worker.EventOrder
import RdpMcp.Native.Mirror
import RdpMcp.Native.Accepted
import RdpMcp.Native.Arrival
import RdpMcp.Native.Disp
import RdpMcp.Native.DispLayouts
import RdpMcp.Native.DispRate
import RdpMcp.Native.ErrorText
import RdpMcp.Native.FileNames
import RdpMcp.Native.FileList
import RdpMcp.Native.Uploads
import RdpMcp.Native.LocalClipboard
import RdpMcp.Native.ServerLocks
import RdpMcp.Native.DownloadExact
import RdpMcp.Native.LocalFiles
import RdpMcp.Native.Lifecycle
import RdpMcp.Operations.Serial
import RdpMcp.Operations.Chord
import RdpMcp.Operations.Drag
import RdpMcp.Operations.Typing
import RdpMcp.Native.Pointer
import RdpMcp.Operations.Returned
import RdpMcp.Image.Screenshot
import RdpMcp.Manager.Reaped
import RdpMcp.Delivery.Sends
import RdpMcp.Delivery.Lines
import RdpMcp.Delivery.Events
import RdpMcp.Delivery.EndToEnd
import RdpMcp.Delivery.Released
import RdpMcp.Native.CJsonPrint
import RdpMcp.Native.PrintExact
import RdpMcp.Native.PrintRead
import RdpMcp.Native.Staged
import RdpMcp.Foundations.Replica
import RdpMcp.Delivery.Desktop
import RdpMcp.Delivery.Screen
import RdpMcp.Native.Locks
import RdpMcp.Session.Locks
import RdpMcp.Native.WideText
import RdpMcp.Native.Descriptors
import RdpMcp.Native.Paste
import RdpMcp.Native.DownloadReports
import RdpMcp.Native.DownloadFailures
import RdpMcp.Native.CJsonRead
import RdpMcp.Native.ReadExact
