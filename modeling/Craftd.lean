import Craftd.Library.System
import Craftd.Library.LinkedNodes
import Craftd.Library.BigEndian
import Craftd.Library.ByteReader
import Craftd.Library.Walk
import Craftd.Library.FallibleLoop
import Craftd.Library.NeighbourLists
import Craftd.Library.ChainedTable
import Craftd.Library.InsertionOrder
import Craftd.Library.LockPrograms
import Craftd.Library.PackedFlags
import Craftd.Library.ProbeSequence
import Craftd.Server.Model
import Craftd.Server.ClientView
import Craftd.Server.Registry
import Craftd.Server.Simulation
import Craftd.Server.PacketOrder
import Craftd.Server.JobsCounter
import Craftd.Server.DisconnectOnce
import Craftd.Containers.List
import Craftd.Containers.ListLinks
import Craftd.Containers.Set
import Craftd.Containers.SetMembers
import Craftd.Containers.SetAlgebra
import Craftd.Containers.ListSort
import Craftd.Containers.ListTail
import Craftd.Containers.ListClear
import Craftd.Containers.String
import Craftd.Containers.StringSlice
import Craftd.Containers.StringWalk
import Craftd.Containers.KHash
import Craftd.Containers.Hash
import Craftd.Library.OpenAddressing
import Craftd.Containers.KHashContents
import Craftd.Containers.KHashResize
import Craftd.Containers.TableMap
import Craftd.Protocol.Types
import Craftd.Protocol.Text
import Craftd.Protocol.StringValidity
import Craftd.Protocol.StringColor
import Craftd.Protocol.StringEdit
import Craftd.Protocol.Buffer
import Craftd.Protocol.Wire
import Craftd.Protocol.String16
import Craftd.Protocol.Request
import Craftd.Protocol.RequestRoundTrip
import Craftd.Protocol.PacketLength
import Craftd.Protocol.MetadataWalk
import Craftd.Protocol.MetadataAgreement
import Craftd.Protocol.MetadataRoundTrip
import Craftd.Protocol.Framing
import Craftd.Protocol.Watermark
import Craftd.Protocol.Response
import Craftd.Protocol.ResponseFraming
import Craftd.Protocol.Passage
import Craftd.Protocol.Transparency
import Craftd.Protocol.RequestTransparency
import Craftd.Protocol.RequestStream
import Craftd.Protocol.ResponseRoundTrip
import Craftd.Server.CleanDisconnects
import Craftd.Server.ClientLifetime
import Craftd.Server.Survival
import Craftd.Server.LockOrder
import Craftd.Workers.Wakeup
import Craftd.Workers.JobQueue
import Craftd.Event.Registry
import Craftd.Event.Dispatch
import Craftd.Server.ReadWakeup
import Craftd.Server.EventOrder
import Craftd.Server.AcceptLimits
import Craftd.Server.RequestDelivery
import Craftd.Server.RequestsAtRest
import Craftd.Protocol.ResponseStream
import Craftd.Proxy.Model
import Craftd.Proxy.Moves
import Craftd.Proxy.Relay
import Craftd.Survival.World
import Craftd.Survival.UniqueUsername
import Craftd.Survival.WorldRegistry
import Craftd.Survival.Region
import Craftd.Survival.Login
import Craftd.Survival.Visibility
import Craftd.Survival.Placement
import Craftd.Survival.Session
import Craftd.Survival.GhostPlayers
import Craftd.Survival.SessionSafety
import Craftd.Survival.ChunkRadius
import Craftd.Survival.ClientChunks
import Craftd.Library.CountingLoop
import Craftd.Library.BoundedArray
import Craftd.Library.LocalTriple
import Craftd.Survival.Positions
import Craftd.Library.MirrorTables
import Craftd.Survival.EntityPackets
import Craftd.Survival.EntityView
import Craftd.Survival.LoginSpiral
import Craftd.Survival.Inventory
import Craftd.Survival.Chunk
import Craftd.Survival.Terrain
import Craftd.Survival.Digging
import Craftd.Workers.Pool
import Craftd.Survival.Chat
import Craftd.Protocol.BadSequence
import Craftd.Server.ReadLock
import Craftd.Protocol.HeapIndependence
import Craftd.Library.Numerals
import Craftd.Library.FileSystem
import Craftd.Persistence.Itoa
import Craftd.Persistence.ChunkPath
import Craftd.Persistence.MakeDirectory
import Craftd.Survival.WorldClock
import Craftd.Server.TimeLoop
import Craftd.Survival.ChunkDelivery
