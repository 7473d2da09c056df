import VoipTests.PyStr

/-!
# VoipTests.Sdp

The parsed SDP bodies the test agents pass around: the parts of a
`sippy.MsgBody` that the suite reads or writes.  A body is session data
(`o=` version and `s=` line) and a list of media sections; the connection
header of a section can be missing.

The same transport filter stands in front of every loop over the sections
in the source (`Section.relevant`).
-/

namespace VoipTests

/-! ## address families -/

/-- The address families the suite works with: the strings `'IP4'` and `'IP6'`. -/
inductive AType where
  | ip4
  | ip6
  deriving DecidableEq, Repr

/-! ## headers -/

/-- A format of an `m=` line: a payload number, or a word such as `t38`. -/
inductive Fmt where
  | num (n : Nat)
  | word (w : String)
  deriving DecidableEq, Repr

/-- The `m=` line of a section. -/
structure MHeader where
  stype : String
  port : Int
  transport : String
  formats : List Fmt
  deriving DecidableEq, Repr

/-- A `c=` line.  `none` is a family word that is neither `IP4` nor `IP6`. -/
structure CHeader where
  atype : Option AType
  addr : String
  deriving DecidableEq, Repr

/-- An `a=` line, `name` or `name:value`. -/
structure AHeader where
  name : String
  value : Option String
  deriving DecidableEq, Repr

/-- The `o=` line: only its version is ever looked at. -/
structure OHeader where
  version : Int
  deriving DecidableEq, Repr

/-- A media section. -/
structure Section where
  mHeader : MHeader
  cHeader : Option CHeader
  aHeaders : List AHeader
  deriving DecidableEq, Repr

/-- The content of a parsed SDP body. -/
structure Sdp where
  oHeader : OHeader
  sHeader : String
  sections : List Section
  deriving DecidableEq, Repr

/-! ## transports -/

namespace Section

/-- `sect.m_header.transport.lower() in ('udp', 'udptl', 'rtp/avp')`. -/
def relevant (sect : Section) : Bool :=
  lower sect.mHeader.transport ∈ ["udp", "udptl", "rtp/avp"]

/-- `sect.m_header.port = portn`. -/
def setPort (sect : Section) (portn : Int) : Section :=
  { sect with mHeader := { sect.mHeader with port := portn } }

@[simp] theorem port_setPort (sect : Section) (portn : Int) :
    (sect.setPort portn).mHeader.port = portn := rfl

@[simp] theorem cHeader_setPort (sect : Section) (portn : Int) :
    (sect.setPort portn).cHeader = sect.cHeader := rfl

@[simp] theorem relevant_setPort (sect : Section) (portn : Int) :
    (sect.setPort portn).relevant = sect.relevant := rfl

end Section

namespace Sdp

/-- `sdp_body.content.o_header.version`. -/
def version (sdp : Sdp) : Int := sdp.oHeader.version

/-- `sdp_body.content.o_header.version += 1`. -/
def bumpVersion (sdp : Sdp) : Sdp := { sdp with oHeader := ⟨sdp.version + 1⟩ }

/-- Apply a loop body to every section. -/
def mapSections (f : Section → Section) (sdp : Sdp) : Sdp :=
  { sdp with sections := sdp.sections.map f }

@[simp] theorem version_bumpVersion (sdp : Sdp) : sdp.bumpVersion.version = sdp.version + 1 := rfl

@[simp] theorem version_mapSections (f : Section → Section) (sdp : Sdp) :
    (sdp.mapSections f).version = sdp.version := rfl

end Sdp

end VoipTests
