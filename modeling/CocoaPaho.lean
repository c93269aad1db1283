import CocoaPaho.MessagesHandOver
import CocoaPaho.PropertiesLength
import CocoaPaho.PropertiesRoundTrip
import CocoaPaho.ClientSettings
import CocoaPaho.ClientRouting
import CocoaPaho.CallbackContexts
import CocoaPaho.DisconnectOutcome
import CocoaPaho.CallbackContract
import CocoaPaho.CallbackDecoding
import CocoaPaho.ClientRequests
import CocoaPaho.ServerURIs
import CocoaPaho.SSLOptionsBridge
import CocoaPaho.BatchBuffers
import CocoaPaho.MessageTransit
import CocoaPaho.ReturnCodes
import CocoaPaho.SessionEnd
import CocoaPaho.MessagesInOrder
import CocoaPaho.DelegateNotices
import CocoaPaho.LogSecrecy
import CocoaPaho.ConnectionLog
import CocoaPaho.SharedTrace
