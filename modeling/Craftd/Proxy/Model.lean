import Craftd.Protocol.ResponseStream
import Craftd.Server.Survival

/-!
# The proxy

A translation of the `survival.proxy` plugin.  Every client gets a connection of its own to
the server behind the proxy, `Client.proxyBuffers`.  Requests of the client come through the
read callback and the workers of this server and are sent on when `Client.process` is
dispatched; responses of the server behind are read by a callback of the plugin and sent on
in it.

One action is one step of a thread, as in the server's own model, and a handler runs in the
step that dispatches its event.  A step is `none` too where the handler cannot go on: where
an assertion fails, where it uses buffers that were freed, and where the encoder faults or
returns NULL.

`connects client` tells whether `bufferevent_socket_connect_hostname` accepts the request for
the connection of `client`, which is made once.
-/

namespace Craftd.Proxy

open StepSystem Server Protocol
open Containers (createStringFromBuffer)

/-- `Client.proxyBuffers`: what the server behind has sent and the proxy has not read, and what
was added to the output. -/
inductive ProxyBuffers
  | unset
  | opened (input output : List Byte)
  | freed
  deriving DecidableEq

/-- What has come on the connection and was not read. -/
def ProxyBuffers.input : ProxyBuffers → List Byte
  | .opened input _ => input
  | _ => []

/-- The server, the connections to the server behind, and every buffer that was added to the
output of a client. -/
structure ProxyServer (Client W : Type*) where
  server : CDServer Client SVRequest W
  proxyBuffers : Client → ProxyBuffers
  output : Client → List (List Byte)

/-- The steps of the threads: those of the server, and what happens on the connection of a client
to the server behind. -/
inductive ProxyAction (Client W : Type*)
  | server (action : Action Client W)
  | receive (client : Client) (bytes : List Byte)
  | read (client : Client)
  | error (client : Client) (error : BitVec 16)
  deriving DecidableEq

/-- The protocol as the proxy uses it, with `isResponse` set. -/
def responseProtocol (heap : Heap) (rounds : Nat) : CDProtocol SVResponse where
  parsable := fun input =>
    match packetParsable rounds input with
    | some .parsable =>
        match responseFromBuffers heap ⟨input, 0⟩ with
        | .ok _ _ => some .parsable
        | .error _ _ => none
    | some (.again _) => some .again
    | some .badSequence => some .badSequence
    | some .outside | none => none
  parse := fun input =>
    match responseFromBuffers heap ⟨input, 0⟩ with
    | .ok packet source => (packet, source.bytes)
    | .error _ source => (none, source.bytes)

/-- The arm of `SV_PacketToBuffer` for the chain `SVPing`. -/
def pingToBuffer (description : SVString) : Added := do
  return bufferAddByte SVPacketType.disconnect.value ++ (← bufferAddString16 description)

/-- `"Craftd Proxy\u00A70\u00A70"`. -/
def pingDescription : List Byte :=
  [0x43, 0x72, 0x61, 0x66, 0x74, 0x64, 0x20, 0x50, 0x72, 0x6F, 0x78, 0x79, 0xC2, 0xA7, 0x30, 0xC2,
    0xA7, 0x30]

/-- What a ping is answered with. -/
def pingReply : Added :=
  match createStringFromBuffer pingDescription with
  | none => .error .hangs
  | some description => pingToBuffer description

variable {Client W : Type*} [DecidableEq Client]

/-- The proxy before its first client. -/
def createProxy : ProxyServer Client W where
  server := createServer
  proxyBuffers := fun _ => .unset
  output := fun _ => []

namespace ProxyServer

/-- Replace the connection of one client. -/
def setBuffers (self : ProxyServer Client W) (client : Client) (value : ProxyBuffers) :
    ProxyServer Client W :=
  { self with proxyBuffers := Function.update self.proxyBuffers client value }

/-- `CD_ClientSendBuffer`. -/
def clientSendBuffer (self : ProxyServer Client W) (client : Client) (data : List Byte) :
    ProxyServer Client W :=
  { self with output := Function.update self.output client (self.output client ++ [data]) }

@[simp] theorem setBuffers_self (self : ProxyServer Client W) (client : Client)
    (value : ProxyBuffers) : (self.setBuffers client value).proxyBuffers client = value :=
  Function.update_self ..

theorem setBuffers_of_ne (self : ProxyServer Client W) {client other : Client}
    (hne : other ≠ client) (value : ProxyBuffers) :
    (self.setBuffers client value).proxyBuffers other = self.proxyBuffers other :=
  Function.update_of_ne hne ..

@[simp] theorem clientSendBuffer_self (self : ProxyServer Client W) (client : Client)
    (data : List Byte) :
    (self.clientSendBuffer client data).output client = self.output client ++ [data] :=
  Function.update_self ..

theorem clientSendBuffer_of_ne (self : ProxyServer Client W) {client other : Client}
    (hne : other ≠ client) (data : List Byte) :
    (self.clientSendBuffer client data).output other = self.output other :=
  Function.update_of_ne hne ..

end ProxyServer

/-- `cdsurvivalproxy_ClientSendPacket`, of a packet that is encoded as `data`. -/
def clientSendPacket (self : ProxyServer Client W) (client : Client) :
    Added → Option (ProxyServer Client W)
  | .ok data => some (self.clientSendBuffer client data)
  | .error _ => none

/-- `cdsurvivalproxy_ClientProxyPacket`. -/
def clientProxyPacket (self : ProxyServer Client W) (client : Client) (packet : SVRequest) :
    Option (ProxyServer Client W) :=
  match self.proxyBuffers client, requestToBuffer packet with
  | .opened input output, .ok (some data) =>
      some (self.setBuffers client (.opened input (output ++ data)))
  | _, _ => none

/-- `CD_ServerKick`, called by a handler. -/
def proxyKick (self : ProxyServer Client W) (client : Client) :
    ProxyServer Client W × List (Event Client SVRequest) :=
  ({ self with server := (serverKick self.server client).1 }, (serverKick self.server client).2)

/-- `cdsurvivalproxy_ClientProcess`. -/
def clientProcess (self : ProxyServer Client W) (client : Client) :
    SVRequest → Option (ProxyServer Client W × List (Event Client SVRequest))
  | .disconnect _ => some (proxyKick self client)
  | .listPing => (clientSendPacket self client pingReply).map fun next => (next, [])
  | packet => (clientProxyPacket self client packet).map fun next => (next, [])

/-- `cdsurvivalproxy_ProxyProcess`. -/
def proxyProcess (self : ProxyServer Client W) (client : Client) :
    SVResponse → Option (ProxyServer Client W × List (Event Client SVRequest))
  | .disconnect _ => some (proxyKick self client)
  | packet => (clientSendPacket self client (responseToBuffer packet)).map fun next => (next, [])

/-- `cdsurvivalproxy_ClientConnect`.  Where the connection is refused the buffers are destroyed,
and the property keeps the pointer to them. -/
def clientConnect (connects : Client → Bool) (self : ProxyServer Client W) (client : Client) :
    ProxyServer Client W :=
  self.setBuffers client (if connects client then .opened [] [] else .freed)

/-- `cdsurvivalproxy_ClientDisconnect`.  The pointer to the freed buffers stays where it is. -/
def clientDisconnect (self : ProxyServer Client W) (client : Client) :
    Option (ProxyServer Client W) :=
  match self.proxyBuffers client with
  | .unset => some self
  | .opened _ _ => some (self.setBuffers client .freed)
  | .freed => none

/-- The handlers of the plugin.  The worker does not look at what they return. -/
def handle (connects : Client → Bool) (self : ProxyServer Client W) :
    Event Client SVRequest → Option (ProxyServer Client W × List (Event Client SVRequest))
  | .connect client => some (clientConnect connects self client, [])
  | .process client packet => clientProcess self client packet
  | .disconnect client => (clientDisconnect self client).map fun next => (next, [])
  | _ => some (self, [])

/-- The handlers of the events of one step, one after the other. -/
def handleAll (connects : Client → Bool) (self : ProxyServer Client W) :
    List (Event Client SVRequest) → Option (ProxyServer Client W × List (Event Client SVRequest))
  | [] => some (self, [])
  | event :: rest => do
      let (next, emitted) ← handle connects self event
      let (last, later) ← handleAll connects next rest
      return (last, emitted ++ later)

/-- `cdsurvivalproxy_ProxyReadCallback`. -/
def proxyReadCallback (heap : Heap) (rounds : Nat) (self : ProxyServer Client W)
    (client : Client) : Option (ProxyServer Client W × List (Event Client SVRequest)) :=
  match self.proxyBuffers client with
  | .opened input output =>
      match (responseProtocol heap rounds).parsable input with
      | none => none
      | some .parsable =>
          match (responseProtocol heap rounds).parse input with
          | (some packet, rest) =>
              proxyProcess (self.setBuffers client (.opened rest output)) client packet
          | (none, rest) => some (self.setBuffers client (.opened rest output), [])
      | some .again => some (self, [])
      | some .badSequence => some (proxyKick self client)
  | _ => none

/-- `cdsurvivalproxy_ProxyErrorCallback`. -/
def proxyErrorCallback (self : ProxyServer Client W) (client : Client) (error : BitVec 16) :
    ProxyServer Client W × List (Event Client SVRequest) :=
  if bevDisconnects error then proxyKick self client else (self, [])

variable [DecidableEq W]

/-- One step of some thread.  The callbacks of a connection come while it is open. -/
def proxyStep (heap : Heap) (rounds : Nat) (connects : Client → Bool)
    (self : ProxyServer Client W) :
    ProxyAction Client W → Option (ProxyServer Client W × List (Event Client SVRequest))
  | .server action => do
      let (server, emitted) ← step (some (survivalProtocol heap rounds)) self.server action
      let (next, later) ← handleAll connects { self with server := server } emitted
      return (next, emitted ++ later)
  | .receive client bytes =>
      match self.proxyBuffers client with
      | .opened input output =>
          some (self.setBuffers client (.opened (input ++ bytes) output), [])
      | _ => none
  | .read client => proxyReadCallback heap rounds self client
  | .error client error =>
      match self.proxyBuffers client with
      | .opened _ _ => some (proxyErrorCallback self client error)
      | _ => none

/-- The proxy as a step system. -/
def proxySystem (heap : Heap) (rounds : Nat) (connects : Client → Bool) :
    System (ProxyServer Client W) (ProxyAction Client W) (Event Client SVRequest) where
  init := createProxy
  step := proxyStep heap rounds connects

end Craftd.Proxy
