import NfsRods.Lib.Bytes
import NfsRods.Lib.CStr
import NfsRods.Lib.Descent
import NfsRods.Lib.Dirs
import NfsRods.Lib.FirstUse
import NfsRods.Lib.Ledger
import NfsRods.Lib.Longest
import NfsRods.Lib.Prog
import NfsRods.Lib.Shell
import NfsRods.Types
import NfsRods.World
import NfsRods.Config.Exports
import NfsRods.Config.Scan
import NfsRods.Config.Parse
import NfsRods.Server
import NfsRods.Fh
import NfsRods.User
import NfsRods.Utils
import NfsRods.Error
import NfsRods.Attr
import NfsRods.FdCache
import NfsRods.ReadDir
import NfsRods.Nfs.Basic
import NfsRods.Nfs.Modify
import NfsRods.Mount
import NfsRods.Nfs.Frame
import NfsRods.Serve
import NfsRods.Proof.Exports
import NfsRods.Proof.Selection
import NfsRods.Sandbox
import NfsRods.Proof.Private
import NfsRods.Proof.Credentials
import NfsRods.Proof.Squash
import NfsRods.Proof.PathOp
import NfsRods.Proof.Buffers
import NfsRods.Proof.ReadOnly
import NfsRods.Proof.Remote
import NfsRods.Proof.Rmdir
import NfsRods.Proof.Refusal
import NfsRods.Proof.MountPassword
import NfsRods.Proof.MountReply
import NfsRods.Proof.Nonce
import NfsRods.Proof.FdRun
import NfsRods.Proof.MountList
import NfsRods.Proof.FdInv
import NfsRods.Proof.FdPending
import NfsRods.Proof.Verifier
import NfsRods.Proof.ExportPath
import NfsRods.Proof.Commands
import NfsRods.Proof.Compose
import NfsRods.Proof.StatCache
import NfsRods.Proof.SameName
import NfsRods.Proof.DirectChild
import NfsRods.Proof.Write
import NfsRods.Proof.Acknowledge
import NfsRods.Proof.Stable
import NfsRods.Proof.Bypass
import NfsRods.Proof.Read
import NfsRods.Proof.Sizes
import NfsRods.Proof.Resolve
import NfsRods.Proof.Search
import NfsRods.Proof.Canonical
import NfsRods.Proof.Mirror
import NfsRods.Proof.Plot
import NfsRods.Proof.Page
import NfsRods.Proof.Readdir
import NfsRods.Proof.Handles
import NfsRods.Proof.Paging
import NfsRods.Proof.Churn
import NfsRods.Proof.Rename
import NfsRods.Proof.Layout
import NfsRods.Proof.MountHandle
import NfsRods.Proof.FhSize
import NfsRods.Proof.FhTable
import NfsRods.Proof.FhLast
import NfsRods.Proof.FhLru
import NfsRods.Proof.PlainCache
import NfsRods.Proof.WarmCold
import NfsRods.Signal
import NfsRods.Proof.Reload
import NfsRods.Proof.Grammar
import NfsRods.Proof.Signal
import NfsRods.Proof.AccessQuery
import NfsRods.Proof.Modes
import NfsRods.Proof.Shared
import NfsRods.Lib.Lease
import NfsRods.Proof.Connection
import NfsRods.Proof.Conversation
import NfsRods.Proof.Discipline
import NfsRods.Lib.SignedBytes
import NfsRods.Proof.CreateVerifier
import NfsRods.Proof.PasswordLength
import NfsRods.Proof.RecMkdir
import NfsRods.Lib.CBuf
import NfsRods.Proof.ModeQuery
import NfsRods.Lib.Heap
import NfsRods.Proof.QueryOutput
import NfsRods.Lib.Slots
import NfsRods.Lib.Xdr
import NfsRods.Proof.ReplySize
import NfsRods.Proof.Groups
import NfsRods.Proof.Errno
import NfsRods.Proof.Faithful
import NfsRods.Proof.Exclusive
import NfsRods.Proof.Normpath
import NfsRods.Proof.Expanded
import NfsRods.Lib.Mask
import NfsRods.Proof.Network
import NfsRods.Inet
import NfsRods.Lib.Chain
import NfsRods.MountTable
import NfsRods.Proof.MountTable
import NfsRods.Cluster
import NfsRods.Lib.ByteOrder
import NfsRods.Proof.Cluster
import NfsRods.Lib.Codec
import NfsRods.Xdr.Basic
import NfsRods.Xdr.Nfs
import NfsRods.Xdr.Mount
import NfsRods.Proof.Nfslist
import NfsRods.Dispatch
import NfsRods.Proof.Wire
import NfsRods.Proof.MountWire
import NfsRods.Lib.Blocks
import NfsRods.Md5
import NfsRods.Proof.Md5
import NfsRods.Lib.CodecSize
import NfsRods.Proof.Datagram
import NfsRods.Proof.Otp
import NfsRods.Proof.Created
import NfsRods.Proof.Env
import NfsRods.Proof.Questions
import NfsRods.Lib.Follow
import NfsRods.Proof.Procedures
