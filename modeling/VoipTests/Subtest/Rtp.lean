import VoipTests.Subtest.State

/-!
# VoipTests.Subtest.Rtp

The RTP side of a subtest: the `_rtp_...` methods of `test`.

`pickMedia` and `applyLocalMedia` look for the first audio section of a body;
the others keep at most one endpoint.  All of them touch only `rtp` and the
draws, which is what the rest of the development needs to know about them.
-/

namespace VoipTests

/-! ## audio sections -/

/-- What `_rtp_pick_media` finds in a section. -/
structure Media where
  target : String × Int
  codec : Codec
  ptime : Int
  proto : Option AType
  deriving DecidableEq, Repr

namespace Section

/-- `sect.m_header.stype.lower() == 'audio'`, with a transport that is looked at. -/
def isAudio (sect : Section) : Bool :=
  lower sect.mHeader.stype = "audio" && lower sect.mHeader.transport ∈ ["udp", "rtp/avp"]

/-- The codec for the first payload number that is known, G.711 first. -/
def codec (sect : Section) : Option Codec :=
  if .num 0 ∈ sect.mHeader.formats then some .g711
  else if .num 9 ∈ sect.mHeader.formats then some .g722
  else none

/-- The loop over `a_headers`: the first `ptime` with a value counts, also when
the value is no number. -/
def ptime (sect : Section) : Int :=
  match sect.aHeaders.findSome? fun ah => if ah.name = "ptime" then ah.value else none with
  | none => 20
  | some v => match pyInt v with
    | some n => max 10 n
    | none => 20

end Section

/-- `_rtp_pick_media`; the error is an `AttributeError`. -/
def pickMedia : List Section → Except Exc (Option Media)
  | [] => .ok none
  | sect :: sects =>
    if !sect.isAudio then pickMedia sects
    else match sect.codec with
      | none => pickMedia sects
      | some codec => match sect.cHeader with
        | none => .error .attributeError
        | some c => .ok (some ⟨(c.addr, sect.mHeader.port), codec, sect.ptime, c.atype⟩)

/-- `_rtp_apply_local_media`. -/
def applyLocalMedia (laddr : Option String) (lport : Int) (proto : Option AType) :
    List Section → List Section
  | [] => []
  | sect :: sects =>
    if !sect.isAudio then sect :: applyLocalMedia laddr lport proto sects
    else match laddr, sect.cHeader with
      | some laddr, some _ => { sect.setPort lport with cHeader := some ⟨proto, laddr⟩ } :: sects
      | _, _ => sect.setPort lport :: sects

/-- `_rtp_apply_local_media` on a body. -/
def Sdp.applyLocalMedia (sdp : Sdp) (laddr : Option String) (lport : Int)
    (proto : Option AType) : Sdp :=
  { sdp with sections := VoipTests.applyLocalMedia laddr lport proto sdp.sections }

@[simp] theorem Sdp.version_applyLocalMedia (sdp : Sdp) (laddr : Option String) (lport : Int)
    (proto : Option AType) : (sdp.applyLocalMedia laddr lport proto).version = sdp.version := rfl

/-! ## endpoints -/

namespace Test

open M

/-- Change the RTP attributes. -/
def modifyRtp (f : Rtp → Rtp) : M Unit := modify fun s => { s with rtp := f s.rtp }

/-- `_rtp_init` -/
def rtpInit : M Unit := do
  let s ← get
  assert (!s.rtp.inited)
  modifyRtp fun rtp => { rtp with inited := true, enabled := !s.tccfg.signallingOnly }

/-- `_rtp_port_alloc`; `assert ntry < 10` holds of the default. -/
def rtpPortAlloc : M Int := do
  let s ← get
  match s.tccfg.portrange.gennotinrange s.env.draws with
  | none => fun _ => .spin
  | some (portn, rest) =>
    modify fun s => { s with env := { s.env with draws := rest } }
    pure portn

/-- `_rtp_pick_media` -/
def rtpPickMedia (sdp : Sdp) : M (Option Media) :=
  match pickMedia sdp.sections with
  | .ok mdata => pure mdata
  | .error exc => raise exc

/-- `RTPEPoint(RTPConf(), params, ...)` -/
def rtpCreate (proto : Option AType) : M Unit := do
  let s ← get
  match s.env.endpoint with
  | none => raise .outside
  | some (laddr, lport) =>
    modifyRtp fun rtp => { rtp with
      ep := some ⟨laddr, lport, proto⟩
      ops := rtp.ops ++ [.created] }

/-- `self._rtp_ep.update(params)`: the endpoint keeps its address and port. -/
def rtpUpdate (ep : Endpoint) (proto : Option AType) : M Unit := do
  let s ← get
  if s.env.updateOk then
    modifyRtp fun rtp => { rtp with
      ep := some { ep with proto := proto }
      updates := rtp.updates + 1 }
  else
    raise .outside

/-- `_rtp_start_or_update` -/
def rtpStartOrUpdate (sdp : Sdp) : M Unit := do
  let s ← get
  assert s.rtp.inited
  if s.rtp.enabled then
    match ← rtpPickMedia sdp with
    | none => pure ()
    | some mdata =>
      match s.rtp.ep with
      | none => rtpCreate mdata.proto
      | some ep => rtpUpdate ep mdata.proto
      modifyRtp fun rtp => { rtp with
        target := some mdata.target
        codec := some mdata.codec
        ptime := some mdata.ptime }

/-- `'0.0.0.0'`, `'::'`, `'*'`, `''` or an address in brackets. -/
def badLaddr (laddr : String) : Bool :=
  laddr ∈ ["0.0.0.0", "::", "*", ""] || laddr.toList.head? = some '[' ||
    laddr.toList.getLast? = some ']'

/-- `_rtp_prepare_local_sdp`, with the local address and family given. -/
def rtpPrepareLocalSdp (sdp : Sdp) (laddr : String) (af : AType) : M Sdp := do
  let s ← get
  assert s.rtp.inited
  if !s.rtp.enabled then
    pure sdp
  else
    let mdata ← rtpPickMedia sdp
    assert mdata.isSome
    if s.rtp.ep.isNone then
      rtpCreate (some af)
    let s ← get
    let ep ← ofSome s.rtp.ep
    assert (!badLaddr laddr)
    pure (sdp.applyLocalMedia (some laddr) ep.lport (some af))

/-- `_rtp_shutdown_stats`, but for the statistics themselves: reading them or
`shutdown()` may raise, and the endpoint is forgotten all the same. -/
def rtpShutdownStats : M Unit := do
  let s ← get
  assert s.rtp.inited
  if s.rtp.enabled then
    assert (!s.rtp.closing)
    modifyRtp fun rtp => { rtp with closing := true }
    if s.rtp.ep.isSome then
      if s.env.statsOk then
        modifyRtp fun rtp => { rtp with
          ep := none
          ops := rtp.ops ++ [.shutdown]
          error := rtp.error || !s.env.shutdownOk }
      else
        modifyRtp fun rtp => { rtp with ep := none, error := true }

/-- `report_rtp`, but for what it prints. -/
def reportRtp : M Unit := do
  let s ← get
  assert s.rtp.inited
  rtpShutdownStats

end Test

end VoipTests
