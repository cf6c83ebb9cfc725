import FixtureLiterals.Text.Vocabulary

/-!
# Handles

A fixture creates its kernel objects up front, in a table that gives each one a
subtype and rights. A value refers to an entry of the table by its position only, so
one handle may occur in several places while what it is stands in one. An expected
message moves entries of the table, each with the object type and rights that the
encoder must attach.
-/

namespace FixtureLiterals

/-- The kind of kernel object behind a handle. The first one is the untyped handle,
which accepts any object. -/
inductive HandleSubtype where
  | handle
  | bti
  | channel
  | clock
  | debuglog
  | event
  | eventpair
  | exception
  | fifo
  | guest
  | interrupt
  | iommu
  | job
  | pager
  | pciDevice
  | pmt
  | port
  | process
  | profile
  | resource
  | socket
  | stream
  | suspendToken
  | thread
  | timer
  | vcpu
  | vmar
  | vmo
deriving DecidableEq, Repr

namespace HandleSubtype

/-- The schema's word for a handle subtype. -/
def word : HandleSubtype → String
  | .handle => "handle"
  | .bti => "bti"
  | .channel => "channel"
  | .clock => "clock"
  | .debuglog => "debuglog"
  | .event => "event"
  | .eventpair => "eventpair"
  | .exception => "exception"
  | .fifo => "fifo"
  | .guest => "guest"
  | .interrupt => "interrupt"
  | .iommu => "iommu"
  | .job => "job"
  | .pager => "pager"
  | .pciDevice => "pci_device"
  | .pmt => "pmt"
  | .port => "port"
  | .process => "process"
  | .profile => "profile"
  | .resource => "resource"
  | .socket => "socket"
  | .stream => "stream"
  | .suspendToken => "suspend_token"
  | .thread => "thread"
  | .timer => "timer"
  | .vcpu => "vcpu"
  | .vmar => "vmar"
  | .vmo => "vmo"

instance : Text.Vocabulary HandleSubtype where
  all := [.handle, .bti, .channel, .clock, .debuglog, .event, .eventpair, .exception, .fifo,
    .guest, .interrupt, .iommu, .job, .pager, .pciDevice, .pmt, .port, .process, .profile,
    .resource, .socket, .stream, .suspendToken, .thread, .timer, .vcpu, .vmar, .vmo]
  word := word
  mem_all := by intro member; cases member <;> decide
  distinct := by decide

/-- The kernel's number for the object type of a subtype. -/
def objectType : HandleSubtype → UInt32
  | .handle => 0
  | .process => 1
  | .thread => 2
  | .vmo => 3
  | .channel => 4
  | .event => 5
  | .port => 6
  | .interrupt => 9
  | .pciDevice => 11
  | .debuglog => 12
  | .socket => 14
  | .resource => 15
  | .eventpair => 16
  | .job => 17
  | .vmar => 18
  | .fifo => 19
  | .guest => 20
  | .vcpu => 21
  | .timer => 22
  | .iommu => 23
  | .bti => 24
  | .profile => 25
  | .pmt => 26
  | .suspendToken => 27
  | .pager => 28
  | .exception => 29
  | .clock => 30
  | .stream => 31

end HandleSubtype

/-- The access rights of a handle, one bit for each right. -/
structure Rights where
  bits : UInt32
deriving DecidableEq, Repr

namespace Rights

/-- No right at all. -/
def none : Rights := ⟨0⟩

/-- The mark that asks for the rights the handle already has. -/
def same : Rights := ⟨0x80000000⟩

/-- All rights that either operand grants. -/
def union (left right : Rights) : Rights := ⟨left.bits ||| right.bits⟩

/-- All rights that some member of a list grants. -/
def unionAll (list : List Rights) : Rights := list.foldl union none

end Rights

/-- One handle that a fixture creates up front. -/
structure HandleDefinition where
  subtype : HandleSubtype
  rights : Rights
deriving DecidableEq, Repr

/-- The handles of a fixture; values refer to them by position. -/
abbrev HandleTable := List HandleDefinition

/-- A handle that an encoded message is expected to move. -/
structure HandleDisposition where
  /-- The position in the handle table. -/
  handle : UInt64
  subtype : HandleSubtype
  rights : Rights
deriving DecidableEq, Repr

end FixtureLiterals
