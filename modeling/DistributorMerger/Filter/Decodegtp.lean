import DistributorMerger.Gtp.Fields

/-!
# The `decodegtp` filter

`decodegtp` prints one line of comma-separated fields for each captured packet: the time stamp, the
fields of the GTP header, the option fields, the inner addresses of a G-PDU, and for a GTP-C
message the IMSI, the two tunnel endpoint identifiers and the end user address found by the
information element walk. Three flags remember which of the four columns have been closed, so that
a comma can stand in for a value that does not come.

`ctime` belongs to the C library and depends on the time zone; it is a parameter.
-/

namespace DistributorMerger

/-- The names that `init_gtpv1_message_types` fills in. -/
def gtpv1MessageTypeNames : List (ℕ × String) :=
  [(1, "ECHO_REQUEST"), (2, "ECHO_RESPONSE"), (3, "VERSION_NOT_SUPPORTED"),
    (4, "NODE_ALIVE_REQUEST"), (5, "NODE_ALIVE_RESPONSE"), (6, "REDIRECTION_REQUEST"),
    (7, "REDIRECTION_RESPONSE"), (16, "CREATE_PDP_CONTEXT_REQUEST"),
    (17, "CREATE_PDP_CONTEXT_RESPONSE"), (18, "UPDATE_PDP_CONTEXT_REQUEST"),
    (19, "UPDATE_PDP_CONTEXT_RESPONSE"), (20, "DELETE_PDP_CONTEXT_REQUEST"),
    (21, "DELETE_PDP_CONTEXT_RESPONSE"), (22, "INITIATE_PDP_CONTEXT_ACTIVATION_REQUEST"),
    (23, "INITIATE_PDP_CONTEXT_ACTIVATION_RESPONSE"), (26, "ERROR_INDICATION"),
    (27, "PDU_NOTIFICATION_REQUEST"), (28, "PDU_NOTIFICATION_RESPONSE"),
    (29, "PDU_NOTIFICATION_REJECT_REQUEST"), (30, "PDU_NOTIFICATION_REJECT_RESPONSE"),
    (31, "SUPPORTED_EXTENSION_HEADERS_NOTIFICATION"),
    (32, "SEND_ROUTEING_INFORMATION_FOR_GPRS_REQUEST"),
    (33, "SEND_ROUTEING_INFORMATION_FOR_GPRS_RESPONSE"), (34, "FAILURE_REPORT_REQUEST"),
    (35, "FAILURE_REPORT_RESPONSE"), (36, "NOTE_MS_GPRS_PRESENT_REQUEST"),
    (37, "NOTE_MS_GPRS_PRESENT_RESPONSE"), (48, "IDENTIFICATION_REQUEST"),
    (49, "IDENTIFICATION_RESPONSE"), (50, "SGSN_CONTEXT_REQUEST"), (51, "SGSN_CONTEXT_RESPONSE"),
    (52, "SGSN_CONTEXT_ACKNOWLEDGE"), (53, "FORWARD_RELOCATION_REQUEST"),
    (54, "FORWARD_RELOCATION_RESPONSE"), (55, "FORWARD_RELOCATION_COMPLETE"),
    (56, "RELOCATION_CANCEL_REQUEST"), (57, "RELOCATION_CANCEL_RESPONSE"),
    (58, "FORWARD_SRNS_CONTEXT"), (59, "FORWARD_RELOCATION_COMPLETE_ACKNOWLEDGE"),
    (60, "FORWARD_SRNS_CONTEXT_ACKNOWLEDGE"), (70, "RAN_INFORMATION_RELAY"),
    (96, "MBMS_NOTIFICATION_REQUEST"), (97, "MBMS_NOTIFICATION_RESPONSE"),
    (98, "MBMS_NOTIFICATION_REJECT_REQUEST"), (99, "MBMS_NOTIFICATION_REJECT_RESPONSE"),
    (100, "CREATE_MBMS_CONTEXT_REQUEST"), (101, "CREATE_MBMS_CONTEXT_RESPONSE"),
    (102, "UPDATE_MBMS_CONTEXT_REQUEST"), (103, "UPDATE_MBMS_CONTEXT_RESPONSE"),
    (104, "DELETE_MBMS_CONTEXT_REQUEST"), (105, "DELETE_MBMS_CONTEXT_RESPONSE"),
    (112, "MBMS_REGISTRATION_REQUEST"), (113, "MBMS_REGISTRATION_RESPONSE"),
    (114, "MBMS_DE-REGISTRATION_REQUEST"), (115, "MBMS_DE-REGISTRATION_RESPONSE"),
    (116, "MBMS_SESSION_START_REQUEST"), (117, "MBMS_SESSION_START_RESPONSE"),
    (118, "MBMS_SESSION_STOP_REQUEST"), (119, "MBMS_SESSION_STOP_RESPONSE"),
    (120, "MBMS_SESSION_UPDATE_REQUEST"), (121, "MBMS_SESSION_UPDATE_RESPONSE"),
    (128, "MS_INFO_CHANGE_NOTIFICATION_REQUEST"), (129, "MS_INFO_CHANGE_NOTIFICATION_RESPONSE"),
    (240, "DATA_RECORD_TRANSFER_REQUEST"), (241, "DATA_RECORD_TRANSFER_RESPONSE"),
    (254, "END_MARKER"), (255, "G-PDU")]

/-- `gtpv1_message_types[type].name`. -/
def gtpv1MessageTypeName (type : ℕ) : String := (gtpv1MessageTypeNames.lookup type).getD ""

namespace Decodegtp

/-! ## The element loop -/

/-- What the element loop has printed, with its flags. -/
structure Columns where
  /-- The text printed so far. -/
  out : String
  /-- `imsi_found`. -/
  imsiFound : Bool := false
  /-- `teidd1_found`. -/
  teidd1Found : Bool := false
  /-- `teidcp_found`. -/
  teidcpFound : Bool := false
  /-- `eua_found`. -/
  euaFound : Bool := false
  deriving DecidableEq, Repr

/-- `printf` of a text. -/
def Columns.print (c : Columns) (text : String) : Columns := { c with out := c.out ++ text }

/-- The action of the loop body on one element. -/
def visit (data : Memory) (gtp : ℕ) (v : ElementVisit) (c : Columns) : Columns :=
  let pos := gtp + v.offset
  let c := if v.ie = gtpv1IeImsi
    then { c.print (imsi2str data pos ++ ",") with imsiFound := true } else c
  let c := if v.ie = gtpv1IeTeiDataI
    then { c.print (hexString (teid2uint data pos).toNat ++ ",") with teidd1Found := true } else c
  let c := if v.ie = gtpv1IeTeiControlPlane
    then { c.print (hexString (teid2uint data pos).toNat ++ ",") with teidcpFound := true } else c
  -- the length decides that there is an address, the PDP type number is not looked at
  let c := if v.ie = gtpv1IeEndUserAddress ∧ gtpv1EuaLength data pos > gtpv1EuaNoAddressLength
    then { c.print (dotted (euaIpv4Address data pos)) with euaFound := true } else c
  -- a column that was passed without its value is closed by a comma
  let c := if v.ie > gtpv1IeImsi ∧ ¬ c.imsiFound
    then { c.print "," with imsiFound := true } else c
  let c := if v.ie > gtpv1IeTeiDataI ∧ ¬ c.teidd1Found
    then { c.print "," with teidd1Found := true } else c
  if v.ie > gtpv1IeTeiControlPlane ∧ ¬ c.teidcpFound
    then { c.print "," with teidcpFound := true } else c

/-! ## The packet handler -/

/-- The fields of the GTP header and its option fields. -/
def headerText (data : Memory) (gtp : ℕ) : String :=
  let options := flagOptions data gtp
  let type := (messageType data gtp).toNat
  (if messageType data gtp = gtpv1MtGPdu then "gtp-u," else "gtp-c,")
    ++ toString (gtpVer (flagTypeVer data gtp)) ++ ","
    ++ toString (gtpType (flagTypeVer data gtp)) ++ ","
    ++ toString (gtpExtFlag options) ++ "," ++ toString (gtpSeqFlag options) ++ ","
    ++ toString (gtpNpduFlag options) ++ ","
    ++ toString type ++ "[" ++ gtpv1MessageTypeName type ++ "],"
    ++ toString (messageLength data gtp) ++ "," ++ hexString (headerTeid data gtp).toNat ++ ","
    ++ if options ≠ 0 then
        hexString (data.be16 (gtp + 8)) ++ "," ++ hexString (data (gtp + 10)).toNat ++ ","
          ++ hexString (data (gtp + 11)).toNat
      else ",,"

/-- The text in front of the decoded fields: the time string without its trailing newline, and the
seconds once more in the place of the microseconds. -/
def timeText (ctime : ℤ → String) (h : PcapPkthdr) : String :=
  String.ofList (ctime h.tvSec).toList.dropLast ++ " "
    ++ zeroPadded 9 (h.tvSec % 2 ^ 32).toNat ++ " usec:"

/-- `decode_gtp_packet` of `decodegtp`: the text printed for a packet, or `none` when the element
loop does not end within the fuel. -/
def decodeGtpPacket (ctime : ℤ → String) (fuel : ℕ) (p : Packet) : Option String :=
  match gtpv1GetHeader p.header.caplen p.data with
  | none => some (timeText ctime p.header ++ "not-gtp\n")
  | some gtp =>
    let text := timeText ctime p.header ++ headerText p.data gtp
    if messageType p.data gtp = gtpv1MtGPdu then
      -- user data: the addresses of the IP header in the tunnel
      let inner := gtp + firstElementOffset p.data gtp
      some (text ++ "," ++ dotted (fun i ↦ p.data (inner + 12 + i)) ++ ","
        ++ dotted (fun i ↦ p.data (inner + 16 + i)) ++ "\n")
    else
      (walk (visit p.data gtp) p.header.caplen.toNat p.data gtp fuel
        (firstElementOffset p.data gtp) { out := text ++ ",," }).map fun c ↦ c.out ++ "\n"

end Decodegtp

end DistributorMerger
