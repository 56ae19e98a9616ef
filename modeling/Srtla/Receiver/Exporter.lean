import Srtla.Lib.Exposition
import Srtla.Receiver.Lifetime

/-!
# The metrics endpoint (`src/metrics/prometheus.cpp`)

`Exporter::render` writes the counters, six gauges and, if asked for, eleven values of
every connection in the text exposition format. The loops append to one string; that
the result is a well-formed text with the values of the receiver's state is seen by
reading it.

**Deviation.** `print_addr` prints an IPv4 address and the same address mapped to IPv6
alike, so the labels of two connections differ only because the SRTLA socket is
dual-stack and all client addresses have the family `AF_INET6`.

Results:
* `render_eq_print`: the loops write the families of `Exporter.families`.
* `addrLabel_injective`: client addresses have different labels.
* `scrape_reads_back`: after every run, a strict reader of the format accepts the text
  and reads exactly the values of the state.
-/

namespace Srtla.Receiver

open Lib Exposition

/-! ## Addresses as text -/

/-- `ntohs`. -/
def ntohs (x : UInt16) : ℕ := x.toNat % 256 * 256 + x.toNat / 256

/-- `inet_ntop(AF_INET6, ...)` of the C library, with what is assumed of it. -/
structure InetNtop6 where
  text : Block 16 → Text
  injective : Function.Injective text
  colon : ∀ a, ':' ∈ text a
  plain : ∀ a, Plain (text a)

/-- Bytes in decimal, with `sep` between them. -/
def decimals (sep : Char) (bytes : Bytes) : Text := [sep].intercalate (bytes.map fun b => natText b.toNat)

/-- `inet_ntop(AF_INET, ...)`. -/
def inetNtop4 (addr : Bytes) : Text := decimals '.' addr

/-- `IN6_IS_ADDR_V4MAPPED`. -/
def isV4Mapped (addr : Block 16) : Bool := addr.bytes.take 12 == List.replicate 10 0 ++ [0xFF, 0xFF]

/-- `print_addr` (`src/common.c:34-49`). -/
def printAddr (ntop6 : InetNtop6) (addr : SockaddrStorage) : Text :=
  if addr.ssFamily = afInet6 then
    if isV4Mapped addr.sin6Addr then inetNtop4 (addr.sin6Addr.bytes.drop 12) else ntop6.text addr.sin6Addr
  else inetNtop4 addr.sinAddr.bytes

/-- `port_no` (`src/common.c:51-54`). -/
def portNo (addr : SockaddrStorage) : ℕ := ntohs addr.port

/-- `addr_label` (`src/metrics/prometheus.cpp:109-112`). -/
def addrLabel (ntop6 : InetNtop6) (addr : SockaddrStorage) : Text :=
  printAddr ntop6 addr ++ ':' :: natText (portNo addr)

/-- `get_local_port` (`src/utils/network_utils.cpp:34-50`), given what `getsockname`
    returns (`none` when it fails). -/
def getLocalPort (getsockname : Option SockaddrStorage) : ℕ :=
  match getsockname with
  | none => 0
  | some addr => if addr.ssFamily = afInet ∨ addr.ssFamily = afInet6 then ntohs addr.port else 0

/-! ## The tables -/

/-- `struct Def` (`src/metrics/prometheus.cpp:28-33`). -/
structure Def where
  id : Counter
  name : Text
  labels : Text
  help : Text

def Def.entry (id : Counter) (name labels help : String) : Def :=
  ⟨id, name.toList, labels.toList, help.toList⟩

/-- `kDefs` (`src/metrics/prometheus.cpp:38-72`). -/
def kDefs : List Def :=
  [.entry .authFailures "srtla_auth_failures_total" ""
     "SRT authentication failures relayed back from the SRT server",
   .entry .bytesReceived "srtla_bytes_received_total" "" "Bytes received from SRTLA clients",
   .entry .connRegistrations "srtla_conn_registrations_total" ""
     "Accepted connection registrations (REG2)",
   .entry .connRegNoGroup "srtla_conn_registrations_rejected_total" "\x7breason=\"no_group\"\x7d"
     "Rejected connection registrations",
   .entry .connRegGroupMismatch "srtla_conn_registrations_rejected_total" "\x7breason=\"group_mismatch\"\x7d"
     "",
   .entry .connRegMaxConns "srtla_conn_registrations_rejected_total" "\x7breason=\"max_conns\"\x7d"
     "",
   .entry .connRegSendError "srtla_conn_registrations_rejected_total" "\x7breason=\"send_error\"\x7d"
     "",
   .entry .connectionsRemoved "srtla_connections_removed_total" ""
     "Connections dropped after CONN_TIMEOUT without traffic",
   .entry .forwardDropped "srtla_forward_dropped_total" ""
     "Client packets dropped because the SRT socket send buffer was full; SRT recovers them when a later packet exposes the gap",
   .entry .forwardErrors "srtla_forward_errors_total" ""
     "Failures forwarding a client packet to the SRT server that ended the group",
   .entry .forwardedBytes "srtla_forwarded_bytes_total" "" "Bytes forwarded to the SRT server",
   .entry .forwardedPackets "srtla_forwarded_packets_total" "" "Packets forwarded to the SRT server",
   .entry .groupRegistrations "srtla_group_registrations_total" ""
     "Accepted group registrations (REG1)",
   .entry .groupRegThrottled "srtla_group_registrations_rejected_total" "\x7breason=\"throttled\"\x7d"
     "Rejected group registrations",
   .entry .groupRegTableFull "srtla_group_registrations_rejected_total" "\x7breason=\"table_full\"\x7d"
     "",
   .entry .groupRegDupAddr "srtla_group_registrations_rejected_total" "\x7breason=\"duplicate_address\"\x7d"
     "",
   .entry .groupRegSendError "srtla_group_registrations_rejected_total" "\x7breason=\"send_error\"\x7d"
     "",
   .entry .groupsRemovedIdle "srtla_groups_removed_total" "\x7breason=\"idle_timeout\"\x7d"
     "Groups torn down, by cause",
   .entry .groupsRemovedAuth "srtla_groups_removed_total" "\x7breason=\"auth_failed\"\x7d" "",
   .entry .groupsRemovedSrtError "srtla_groups_removed_total" "\x7breason=\"srt_error\"\x7d" "",
   .entry .groupsRemovedEvicted "srtla_groups_removed_total" "\x7breason=\"evicted\"\x7d" "",
   .entry .naksReceived "srtla_naks_received_total" "" "SRT NAK packets accepted from clients",
   .entry .naksSuppressed "srtla_naks_suppressed_total" "" "SRT NAK packets dropped as duplicates",
   .entry .packetsReceived "srtla_packets_received_total" "" "Packets received from SRTLA clients",
   .entry .recoveryStarted "srtla_recoveries_total" "\x7bresult=\"started\"\x7d"
     "Connection recovery attempts",
   .entry .recoveryCompleted "srtla_recoveries_total" "\x7bresult=\"completed\"\x7d" "",
   .entry .recoveryFailed "srtla_recoveries_total" "\x7bresult=\"failed\"\x7d" "",
   .entry .recvBatches "srtla_recv_batches_total" ""
     "recvmmsg() calls that returned at least one packet; packets/batches is the receive-loop fill ratio",
   .entry .sendErrAck "srtla_send_errors_total" "\x7bpath=\"ack\"\x7d"
     "Failed sends towards clients, by path",
   .entry .sendErrKeepalive "srtla_send_errors_total" "\x7bpath=\"keepalive\"\x7d" "",
   .entry .sendErrDownstream "srtla_send_errors_total" "\x7bpath=\"downstream\"\x7d" "",
   .entry .srtBytesReceived "srtla_srt_bytes_received_total" "" "Bytes received from the SRT server",
   .entry .srtPacketsReceived "srtla_srt_packets_received_total" ""
     "Packets received from the SRT server"]

/-- `struct ConnDef` (`src/metrics/prometheus.cpp:77-82`). -/
structure ConnDef where
  name : Text
  type : Text
  help : Text
  value : Connection → ℤ → ℤ

/-- `kConnDefs` (`src/metrics/prometheus.cpp:84-107`). A `uint64_t` is cast to
    `long long`. -/
def kConnDefs : List ConnDef :=
  [⟨"srtla_conn_bytes_received_total".toList, "counter".toList,
      "Bytes received on this connection".toList, fun c _ => c.stats.bytesReceived.toInt64.toInt⟩,
   ⟨"srtla_conn_packets_received_total".toList, "counter".toList,
      "Packets received on this connection".toList, fun c _ => c.stats.packetsReceived.toInt64.toInt⟩,
   ⟨"srtla_conn_packets_lost_total".toList, "counter".toList,
      "Packets reported lost (NAKs) on this connection".toList, fun c _ => c.stats.packetsLost.toNat⟩,
   ⟨"srtla_conn_weight_percent".toList, "gauge".toList,
      "Load-balancing weight assigned to this connection".toList, fun c _ => c.stats.weightPercent.toNat⟩,
   ⟨"srtla_conn_error_points".toList, "gauge".toList,
      "Quality error points accumulated in the last evaluation".toList,
      fun c _ => c.stats.errorPoints.toNat⟩,
   ⟨"srtla_conn_rtt_ms".toList, "gauge".toList,
      "Round-trip time reported by the sender (extended keepalives only)".toList,
      fun c _ => c.stats.rttMs.toNat⟩,
   ⟨"srtla_conn_window".toList, "gauge".toList,
      "Sender-side congestion window (extended keepalives only)".toList, fun c _ => c.stats.window⟩,
   ⟨"srtla_conn_in_flight".toList, "gauge".toList,
      "Sender-side in-flight packets (extended keepalives only)".toList, fun c _ => c.stats.inFlight⟩,
   ⟨"srtla_conn_sender_bitrate_bytes_per_second".toList, "gauge".toList,
      "Send rate reported by the sender (extended keepalives only)".toList,
      fun c _ => c.stats.senderBitrateBps.toNat⟩,
   ⟨"srtla_conn_idle_seconds".toList, "gauge".toList,
      "Seconds since the last packet on this connection".toList, fun c now => now - c.lastRcvd⟩,
   ⟨"srtla_conn_extended_keepalives".toList, "gauge".toList,
      "1 if the sender sends extended keepalives with telemetry".toList,
      fun c _ => if c.stats.senderSupportsExtendedKeepalives then 1 else 0⟩]

/-! ## Rendering -/

/-- The members of `Exporter` that `render` reads, the version of the build, and the
    calls it makes into the system. -/
structure Exporter where
  detailed : Bool
  startTime : ℤ
  version : Text
  getsockname : ℤ → Option SockaddrStorage
  ntop6 : InetNtop6

/-- The two lines with which a family starts. -/
def header (name help type : Text) : Text :=
  "# HELP ".toList ++ name ++ ' ' :: help ++ "\n# TYPE ".toList ++ name ++ ' ' :: type ++ ['\n']

/-- The loop over `kDefs` (`src/metrics/prometheus.cpp:260-277`). The counters are
    `uint64_t`. -/
def renderCounters (metrics : Metrics) : (prevName : Text) → List Def → Text
  | _, [] => []
  | prevName, d :: ds =>
    (if prevName ≠ d.name then header d.name d.help "counter".toList else []) ++
      (d.name ++ d.labels ++ ' ' :: natText (metrics d.id % 2 ^ 64) ++ ['\n']) ++
      renderCounters metrics d.name ds

/-- `append_gauge` (`src/metrics/prometheus.cpp:114-126`). -/
def appendGauge (name help : Text) (value : ℤ) : Text :=
  header name help "gauge".toList ++ (name ++ ' ' :: intText value ++ ['\n'])

/-- The port of the group's SRT socket (lines 312-314). -/
def Exporter.groupPort (x : Exporter) (g : ConnectionGroup) : ℕ :=
  if 0 ≤ g.srtSock then getLocalPort (x.getsockname g.srtSock) else 0

/-- The line of a connection (lines 316-323). -/
def Exporter.connLine (x : Exporter) (d : ConnDef) (g : ConnectionGroup) (c : Connection) (now : ℤ) : Text :=
  d.name ++ "\x7bgroup=\"".toList ++ natText (x.groupPort g) ++ "\",remote=\"".toList ++
    addrLabel x.ntop6 c.addr ++ "\"\x7d ".toList ++ intText (d.value c now) ++ ['\n']

/-- `Exporter::render` (`src/metrics/prometheus.cpp:256-329`). -/
def Exporter.render (x : Exporter) (s : State) (now : ℤ) : Text :=
  renderCounters s.metrics [] kDefs ++
    ("# HELP srtla_build_info Build information\n# TYPE srtla_build_info gauge\n".toList ++
      "srtla_build_info\x7bversion=\"".toList ++ x.version ++ "\"\x7d 1\n".toList) ++
    appendGauge "srtla_start_time_seconds".toList "Unix time the receiver started".toList x.startTime ++
    appendGauge "srtla_groups".toList "Registered connection groups".toList s.groups.length ++
    appendGauge "srtla_groups_established".toList
      "Groups whose SRT session was accepted by the SRT server".toList
      (s.groups.countP fun g => g.established) ++
    appendGauge "srtla_connections".toList "Registered connections across all groups".toList
      (s.groups.map fun g => g.conns.length).sum ++
    appendGauge "srtla_auth_sources_blocked".toList
      "Source IPs currently blocked for repeated SRT auth failures".toList (s.limiter.blockedCount now) ++
    if x.detailed then
      kConnDefs.flatMap fun d => header d.name d.help d.type ++
        s.groups.flatMap fun g => g.conns.flatMap fun c => x.connLine d g c now
    else []

/-! ## The families of the exposition -/

/-- The labels of a counter, read from their text. -/
def Def.pairs (d : Def) : Labels := ((readSeries d.labels).map Prod.snd).getD []

/-- Neighbours with one name, each with its first entry apart. -/
def groupDefs : List Def → List (Def × List Def)
  | [] => []
  | d :: ds =>
    match groupDefs ds with
    | [] => [(d, [])]
    | (e, es) :: gs => if d.name = e.name then (d, e :: es) :: gs else (d, []) :: (e, es) :: gs

def Def.sample (metrics : Metrics) (d : Def) : Labels × ℤ := (d.pairs, (metrics d.id % 2 ^ 64 : ℕ))

/-- The family of neighbours with one name. -/
def counterFamily (metrics : Metrics) (p : Def × List Def) : Family :=
  ⟨p.1.name, p.1.help, .counter, (p.1 :: p.2).map (Def.sample metrics)⟩

/-- A family with one sample, without labels. -/
def gaugeFamily (name help : Text) (value : ℤ) : Family := ⟨name, help, .gauge, [([], value)]⟩

/-- The labels of a connection. -/
def Exporter.connLabels (x : Exporter) (g : ConnectionGroup) (c : Connection) : Labels :=
  [("group".toList, natText (x.groupPort g)), ("remote".toList, addrLabel x.ntop6 c.addr)]

/-- The connections of the registry, each with its group. -/
def State.links (s : State) : List (ConnectionGroup × Connection) :=
  s.groups.flatMap fun g => g.conns.map fun c => (g, c)

def ConnDef.kind (d : ConnDef) : Kind := (readKind d.type).getD .gauge

def Exporter.connFamily (x : Exporter) (s : State) (now : ℤ) (d : ConnDef) : Family :=
  ⟨d.name, d.help, d.kind, s.links.map fun p => (x.connLabels p.1 p.2, d.value p.2 now)⟩

/-- The gauges of the receiver as a whole. -/
def Exporter.gauges (x : Exporter) (s : State) (now : ℤ) : List Family :=
  [⟨"srtla_build_info".toList, "Build information".toList, .gauge, [([("version".toList, x.version)], 1)]⟩,
   gaugeFamily "srtla_start_time_seconds".toList "Unix time the receiver started".toList x.startTime,
   gaugeFamily "srtla_groups".toList "Registered connection groups".toList s.groups.length,
   gaugeFamily "srtla_groups_established".toList
     "Groups whose SRT session was accepted by the SRT server".toList
     (s.groups.countP fun g => g.established),
   gaugeFamily "srtla_connections".toList "Registered connections across all groups".toList
     s.links.length,
   gaugeFamily "srtla_auth_sources_blocked".toList
     "Source IPs currently blocked for repeated SRT auth failures".toList (s.limiter.blockedCount now)]

/-- What a scrape says: a family for every name, and a sample for every counter, gauge
    and value of a connection. -/
def Exporter.families (x : Exporter) (s : State) (now : ℤ) : List Family :=
  (groupDefs kDefs).map (counterFamily s.metrics) ++ x.gauges s now ++
    if x.detailed then kConnDefs.map (x.connFamily s now) else []

/-! ## The loops write the families -/

theorem counter_text : "counter".toList = Kind.counter.text := by decide

theorem gauge_text : "gauge".toList = Kind.gauge.text := by decide

theorem header_eq (name help : Text) (kind : Kind) :
    header name help kind.text = unlines [helpLine name help, typeLine name kind] := by
  have hhelp : "# HELP ".toList = ['#', ' ', 'H', 'E', 'L', 'P', ' '] := by decide
  have htype : "\n# TYPE ".toList = ['\n', '#', ' ', 'T', 'Y', 'P', 'E', ' '] := by decide
  unfold header
  rw [hhelp, htype]
  simp only [unlines, List.flatMap_cons, List.flatMap_nil, helpLine, typeLine, headerLine, helpWord,
    typeWord, List.cons_append, List.append_assoc, List.nil_append, List.append_nil]

/-- The sample lines of a family. -/
def samplesText (f : Family) : Text := unlines (f.samples.map (sampleLine f.name))

theorem print_cons (f : Family) (fams : List Family) :
    print (f :: fams) = header f.name f.help f.kind.text ++ samplesText f ++ print fams := by
  rw [print, List.flatMap_cons, unlines_append, header_eq, samplesText, ← unlines_append [_, _]]
  rfl

theorem print_append (fams fams' : List Family) : print (fams ++ fams') = print fams ++ print fams' := by
  rw [print, List.flatMap_append, unlines_append]
  rfl

/-- The line of a counter. -/
theorem samplesText_cons (name help : Text) (kind : Kind) (sample : Labels × ℤ) (samples : List (Labels × ℤ)) :
    samplesText ⟨name, help, kind, sample :: samples⟩ =
      name ++ labelsText sample.1 ++ ' ' :: intText sample.2 ++ ['\n'] ++
        samplesText ⟨name, help, kind, samples⟩ := by
  rw [samplesText, List.map_cons, unlines, List.flatMap_cons]
  rfl

/-- **The loop over the counters.** It starts a family where the name changes. -/
theorem renderCounters_eq (metrics : Metrics) {ds : List Def} (h : ∀ d ∈ ds, labelsText d.pairs = d.labels)
    (prevName : Text) :
    renderCounters metrics prevName ds =
      match groupDefs ds with
      | [] => []
      | p :: ps =>
        (if prevName ≠ p.1.name then header p.1.name p.1.help Kind.counter.text else []) ++
          samplesText (counterFamily metrics p) ++ print (ps.map (counterFamily metrics)) := by
  induction ds generalizing prevName with
  | nil => rfl
  | cons d ds ih =>
    have hrest := ih (fun e he => h e (List.mem_cons_of_mem _ he)) d.name
    have hline : ∀ ds : List Def, samplesText (counterFamily metrics (d, ds)) =
        d.name ++ d.labels ++ ' ' :: natText (metrics d.id % 2 ^ 64) ++ ['\n'] ++
          samplesText ⟨d.name, d.help, .counter, ds.map (Def.sample metrics)⟩ := by
      intro ds
      rw [← h d List.mem_cons_self]
      exact samplesText_cons _ _ _ _ _
    rw [renderCounters, hrest, counter_text, groupDefs]
    cases hgroups : groupDefs ds with
    | nil =>
      dsimp only
      rw [hline]
      show _ ++ _ ++ [] = _ ++ (_ ++ []) ++ []
      rw [List.append_nil, List.append_nil, List.append_nil]
    | cons p ps =>
      obtain ⟨e, es⟩ := p
      dsimp only
      by_cases hname : d.name = e.name
      · have hsame : samplesText ⟨d.name, d.help, .counter, (e :: es).map (Def.sample metrics)⟩ =
            samplesText (counterFamily metrics (e, es)) := by
          unfold samplesText counterFamily
          dsimp only
          rw [hname]
        rw [if_pos hname, if_neg (not_not.mpr hname)]
        dsimp only
        rw [hline, hsame, List.nil_append]
        simp only [List.append_assoc]
      · rw [if_neg hname, if_pos hname]
        dsimp only
        rw [hline, List.map_cons, print_cons]
        show _ ++ _ ++ (_ ++ _ ++ _) = _ ++ (_ ++ []) ++ (_ ++ _ ++ _)
        rw [List.append_nil]
        rfl

/-! ## The tables are in order -/

/-- What the text format asks of the counters. -/
def defsOk (p : Def × List Def) : Bool :=
  !p.1.name.isEmpty && p.1.name.all nameChar && !p.1.help.contains '\n' &&
    (p.1 :: p.2).all (fun d => d.pairs.all fun q =>
      (q.1 ++ q.2).all fun c => !separators.contains c) &&
    decide ((p.1 :: p.2).map Def.pairs).Nodup

theorem Def.entry_ofList (id : Counter) (name labels help : Text) :
    Def.entry id (.ofList name) (.ofList labels) (.ofList help) = ⟨id, name, labels, help⟩ := by
  rw [Def.entry, String.toList_ofList, String.toList_ofList, String.toList_ofList]

-- The literals become lists of characters before they are evaluated: decoding them is
-- slow in the kernel.
theorem kDefs_ok : (groupDefs kDefs).all defsOk = true := by
  unfold kDefs
  repeat rw [Def.entry_ofList]
  decide +kernel

theorem kDefs_labels : kDefs.all (fun d => labelsText d.pairs == d.labels) = true := by
  unfold kDefs
  repeat rw [Def.entry_ofList]
  decide +kernel

/-- What it asks of the values of connections. -/
def ConnDef.ok (d : ConnDef) : Bool :=
  d.name.all nameChar && !d.help.contains '\n' && d.type == d.kind.text

theorem kConnDefs_ok : kConnDefs.all ConnDef.ok = true := by
  unfold kConnDefs
  repeat rw [String.toList_ofList]
  decide +kernel

/-! ## The text is the print of the families -/

theorem renderCounters_kDefs (metrics : Metrics) :
    renderCounters metrics [] kDefs = print ((groupDefs kDefs).map (counterFamily metrics)) := by
  have hlabels : ∀ d ∈ kDefs, labelsText d.pairs = d.labels := fun d hd =>
    eq_of_beq (List.all_eq_true.mp kDefs_labels d hd)
  rw [renderCounters_eq metrics hlabels]
  cases hgroups : groupDefs kDefs with
  | nil => rfl
  | cons p ps =>
    have hne : [] ≠ p.1.name := by
      have hok := List.all_eq_true.mp kDefs_ok p (hgroups ▸ List.mem_cons_self)
      simp only [defsOk, Bool.and_eq_true, Bool.not_eq_true', List.isEmpty_eq_false_iff] at hok
      exact hok.1.1.1.1.symm
    dsimp only
    rw [if_pos hne, List.map_cons, print_cons]
    rfl

theorem appendGauge_eq (name help : Text) (value : ℤ) :
    appendGauge name help value = print [gaugeFamily name help value] := by
  rw [print_cons, appendGauge, gauge_text, gaugeFamily, samplesText_cons]
  show _ = _ ++ (name ++ [] ++ _ ++ _ ++ []) ++ []
  rw [List.append_nil, List.append_nil, List.append_nil]

theorem buildInfo_eq (version : Text) :
    "# HELP srtla_build_info Build information\n# TYPE srtla_build_info gauge\n".toList ++
        "srtla_build_info\x7bversion=\"".toList ++ version ++ "\"\x7d 1\n".toList =
      print [⟨"srtla_build_info".toList, "Build information".toList, .gauge,
        [([("version".toList, version)], 1)]⟩] := by
  have hheader : "# HELP srtla_build_info Build information\n# TYPE srtla_build_info gauge\n".toList =
      header "srtla_build_info".toList "Build information".toList Kind.gauge.text := by
    unfold header
    repeat rw [String.toList_ofList]
    decide
  have hlabel : "srtla_build_info\x7bversion=\"".toList =
      "srtla_build_info".toList ++ '{' :: ("version".toList ++ ['=', '"']) := by
    repeat rw [String.toList_ofList]
    decide
  have hvalue : "\"\x7d 1\n".toList = ['"', '}', ' ', '1', '\n'] := by decide
  have hone : intText 1 = ['1'] := by decide
  rw [hheader, hlabel, hvalue, print_cons, samplesText_cons, hone]
  show _ = _ ++ (_ ++ labelsText [("version".toList, version)] ++ ' ' :: ['1'] ++ ['\n'] ++ []) ++ []
  rw [labelsText, if_neg (List.cons_ne_nil _ _), List.map_singleton, List.intercalate_singleton, labelText]
  simp only [List.append_assoc, List.cons_append, List.nil_append, List.append_nil]

/-- The line of a connection is that of a sample. -/
theorem connLine_eq (x : Exporter) (d : ConnDef) (g : ConnectionGroup) (c : Connection) (now : ℤ) :
    x.connLine d g c now = sampleLine d.name (x.connLabels g c, d.value c now) ++ ['\n'] := by
  have hgroup : "\x7bgroup=\"".toList = '{' :: ("group".toList ++ ['=', '"']) := by decide
  have hremote : "\",remote=\"".toList = '"' :: ',' :: ("remote".toList ++ ['=', '"']) := by decide
  have hend : "\"\x7d ".toList = ['"', '}', ' '] := by decide
  unfold Exporter.connLine sampleLine labelsText Exporter.connLabels
  rw [hgroup, hremote, hend, if_neg (List.cons_ne_nil _ _), List.map_cons, List.map_singleton,
    List.intercalate_cons_cons, List.intercalate_singleton, labelText, labelText]
  simp only [List.append_assoc, List.cons_append, List.nil_append]

theorem connFamily_text (x : Exporter) (s : State) (now : ℤ) (d : ConnDef) :
    (s.groups.flatMap fun g => g.conns.flatMap fun c => x.connLine d g c now) =
      samplesText (x.connFamily s now d) := by
  unfold samplesText Exporter.connFamily State.links unlines
  simp only [List.map_flatMap, List.flatMap_assoc, List.map_map, List.flatMap_map, connLine_eq]
  rfl

theorem connections_eq (s : State) :
    (s.groups.map fun g => (g.conns.length : ℤ)).sum = s.links.length := by
  simp only [State.links, List.length_flatMap, List.length_map, Nat.cast_list_sum, List.map_map]
  rfl

theorem connDefs_text (x : Exporter) (s : State) (now : ℤ) {ds : List ConnDef} (h : ds.all ConnDef.ok = true) :
    (ds.flatMap fun d => header d.name d.help d.type ++
        s.groups.flatMap fun g => g.conns.flatMap fun c => x.connLine d g c now) =
      print (ds.map (x.connFamily s now)) := by
  induction ds with
  | nil => rfl
  | cons d ds ih =>
    rw [List.all_cons, Bool.and_eq_true] at h
    obtain ⟨hok, hrest⟩ := h
    have htype : d.type = d.kind.text := by
      simp only [ConnDef.ok, Bool.and_eq_true, beq_iff_eq] at hok
      exact hok.2
    rw [List.flatMap_cons, List.map_cons, print_cons, ih hrest, connFamily_text, htype]
    rfl

/-- **The loops write the families.** -/
theorem render_eq_print (x : Exporter) (s : State) (now : ℤ) :
    x.render s now = print (x.families s now) := by
  have hgauges : x.gauges s now =
      [⟨"srtla_build_info".toList, "Build information".toList, .gauge, [([("version".toList, x.version)], 1)]⟩] ++
        [gaugeFamily _ _ _] ++ [gaugeFamily _ _ _] ++ [gaugeFamily _ _ _] ++ [gaugeFamily _ _ _] ++
        [gaugeFamily _ _ _] := rfl
  unfold Exporter.render Exporter.families
  rw [connDefs_text x s now kConnDefs_ok, connections_eq, renderCounters_kDefs, buildInfo_eq, hgauges]
  simp only [appendGauge_eq, print_append, List.append_assoc]
  cases x.detailed <;> rfl

/-! ## Labels tell addresses apart -/

theorem mem_decimals {sep c : Char} {bytes : Bytes} (h : c ∈ decimals sep bytes) :
    c = sep ∨ ∃ n, c ∈ natText n := by
  obtain h | ⟨l, hl, hc⟩ := mem_intercalate h
  · exact Or.inl h
  · obtain ⟨b, _, rfl⟩ := List.mem_map.mp hl
    exact Or.inr ⟨_, hc⟩

theorem plain_decimals {sep : Char} (hsep : sep ∉ separators) (bytes : Bytes) : Plain (decimals sep bytes) := by
  intro c hc
  obtain rfl | ⟨n, hn⟩ := mem_decimals hc
  · exact hsep
  · exact plain_natText n c hn

theorem colon_notMem_inetNtop4 (addr : Bytes) : ':' ∉ inetNtop4 addr := by
  intro h
  obtain h | ⟨n, hn⟩ := mem_decimals h
  · exact absurd h (by decide)
  · exact notMem_natText (by decide) n hn

theorem plain_colon_cons {t : Text} (h : Plain t) : Plain (':' :: t) := by
  refine List.forall_mem_cons.mpr ⟨?_, h⟩
  decide

theorem plain_addrLabel (ntop6 : InetNtop6) (addr : SockaddrStorage) : Plain (addrLabel ntop6 addr) := by
  have haddr : Plain (printAddr ntop6 addr) := by
    unfold printAddr
    split_ifs
    · exact plain_decimals (by decide) _
    · exact ntop6.plain _
    · exact plain_decimals (by decide) _
  exact haddr.append (plain_colon_cons (plain_natText _))

theorem decimals_inj {sep : Char} (hsep : sep.isDigit = false) {a b : Bytes} (ha : a ≠ []) (hb : b ≠ [])
    (h : decimals sep a = decimals sep b) : a = b := by
  have hsplit : ∀ l : Bytes, l ≠ [] → (decimals sep l).splitOn sep = l.map fun b => natText b.toNat := by
    intro l hl
    refine List.splitOn_intercalate _ ?_ (by simpa using hl)
    intro t ht
    obtain ⟨b, _, rfl⟩ := List.mem_map.mp ht
    exact notMem_natText hsep _
  have hmap := hsplit a ha
  rw [h, hsplit b hb] at hmap
  refine (List.map_injective_iff.mpr ?_) hmap.symm
  intro x y hxy
  exact UInt8.toNat_inj.mp (natText_injective hxy)

theorem ntohs_injective : Function.Injective ntohs := by
  intro x y h
  unfold ntohs at h
  have hx := x.toNat_lt
  have hy := y.toNat_lt
  exact UInt16.toNat_inj.mp (by omega)

theorem drop_ne_nil (a : Block 16) : a.bytes.drop 12 ≠ [] := by
  intro h
  have hlen := congrArg List.length h
  rw [List.length_drop, a.length_eq] at hlen
  cases hlen

theorem printAddr_inj {ntop6 : InetNtop6} {a b : SockaddrStorage} (ha : a.ssFamily = afInet6)
    (hb : b.ssFamily = afInet6) (h : printAddr ntop6 a = printAddr ntop6 b) : a.sin6Addr = b.sin6Addr := by
  rw [printAddr, printAddr, if_pos ha, if_pos hb] at h
  by_cases hma : isV4Mapped a.sin6Addr = true <;> by_cases hmb : isV4Mapped b.sin6Addr = true
  · rw [if_pos hma, if_pos hmb] at h
    have hdrop := decimals_inj (by decide) (drop_ne_nil _) (drop_ne_nil _) h
    have htake := (eq_of_beq hma).trans (eq_of_beq hmb).symm
    refine Block.ext ?_
    rw [← List.take_append_drop 12 a.sin6Addr.bytes, htake, hdrop, List.take_append_drop]
  · rw [if_pos hma, if_neg hmb] at h
    exact absurd (h ▸ ntop6.colon _) (colon_notMem_inetNtop4 _)
  · rw [if_neg hma, if_pos hmb] at h
    exact absurd (h ▸ ntop6.colon _) (colon_notMem_inetNtop4 _)
  · rw [if_neg hma, if_neg hmb] at h
    exact ntop6.injective h

/-- **Client addresses have different labels.** The port is what follows the last
    colon. -/
theorem addrLabel_injective {ntop6 : InetNtop6} {a b : SockaddrStorage} (ha : a.ssFamily = afInet6)
    (hb : b.ssFamily = afInet6) (h : addrLabel ntop6 a = addrLabel ntop6 b) : a.endpoint = b.endpoint := by
  have hsplit : ∀ (t : Text) (n : ℕ), (t ++ ':' :: natText n).reverse.splitOn ':' =
      (natText n).reverse :: t.reverse.splitOn ':' := by
    intro t n
    rw [List.reverse_append, List.reverse_cons, List.append_assoc]
    refine splitOn_cons fun hmem => ?_
    exact notMem_natText (by decide) n (List.mem_reverse.mp hmem)
  have hreverse := hsplit (printAddr ntop6 a) (portNo a)
  rw [show printAddr ntop6 a ++ _ = _ from h, addrLabel, hsplit, List.cons.injEq] at hreverse
  have hport := List.reverse_injective hreverse.1
  rw [addrLabel, addrLabel, hport] at h
  have haddr := printAddr_inj ha hb (List.append_cancel_right h)
  have hports : a.port = b.port := ntohs_injective (natText_injective hport.symm)
  rw [SockaddrStorage.endpoint, SockaddrStorage.endpoint, ha, hb, if_pos rfl, if_pos rfl, haddr, hports]

/-! ## The families are well formed -/

/-- The clients of the dual-stack SRTLA socket. -/
def State.Inet6 (s : State) : Prop := ∀ g ∈ s.groups, ∀ c ∈ g.conns, c.addr.ssFamily = afInet6

theorem counterFamily_wellFormed (metrics : Metrics) {p : Def × List Def} (h : defsOk p = true) :
    (counterFamily metrics p).WellFormed := by
  simp only [defsOk, Bool.and_eq_true, Bool.not_eq_true', List.contains_eq_mem, decide_eq_false_iff_not,
    decide_eq_true_eq] at h
  obtain ⟨⟨⟨⟨-, hname⟩, hhelp⟩, hlabels⟩, hseries⟩ := h
  refine ⟨fun c hc => List.all_eq_true.mp hname c hc, hhelp, ?_, ?_⟩
  · intro sample hsample q hq
    obtain ⟨d, hd, rfl⟩ := List.mem_map.mp hsample
    have hall := List.all_eq_true.mp (List.all_eq_true.mp (List.all_eq_true.mp hlabels d hd) q hq)
    have hplain : Plain (q.1 ++ q.2) := by
      intro c hc
      simpa using hall c hc
    exact ⟨fun c hc => hplain c (List.mem_append_left _ hc),
      fun c hc => hplain c (List.mem_append_right _ hc)⟩
  · rw [counterFamily, List.map_map]
    exact hseries

theorem gaugeFamily_wellFormed {name help : Text} (hname : name.all nameChar = true) (hhelp : '\n' ∉ help)
    (value : ℤ) : (gaugeFamily name help value).WellFormed where
  name := fun c hc => List.all_eq_true.mp hname c hc
  help := hhelp
  labels := by
    intro sample hsample p hp
    rw [List.mem_singleton.mp hsample] at hp
    cases hp
  series := List.nodup_singleton _

theorem gauges_wellFormed (x : Exporter) (hversion : Plain x.version) (s : State) (now : ℤ) :
    ∀ f ∈ x.gauges s now, f.WellFormed := by
  intro f hf
  simp only [Exporter.gauges, List.mem_cons, List.not_mem_nil, or_false] at hf
  rcases hf with rfl | rfl | rfl | rfl | rfl | rfl
  · have hname : "srtla_build_info".toList.all nameChar = true := by decide
    have hkey : "version".toList.all nameChar = true := by decide
    have hhelp : '\n' ∉ "Build information".toList := by decide
    refine ⟨fun c hc => List.all_eq_true.mp hname c hc, hhelp, ?_, List.nodup_singleton _⟩
    intro sample hsample p hp
    rw [List.mem_singleton.mp hsample] at hp
    rw [List.mem_singleton.mp hp]
    exact ⟨plain_of_nameChar fun c hc => List.all_eq_true.mp hkey c hc, hversion⟩
  all_goals
    refine gaugeFamily_wellFormed ?_ ?_ _ <;> rw [String.toList_ofList] <;> decide

/-- No two connections have one endpoint. -/
theorem links_endpoints {s : State} (h : Inv s) : (s.links.map fun p => p.2.addr.endpoint).Nodup := by
  rw [State.links, List.map_flatMap, List.nodup_flatMap]
  refine ⟨fun g hg => ?_, h.apart.imp ?_⟩
  · rw [List.map_map]
    exact (h.wf g hg).endpoints
  · intro g g' hapart e he he'
    dsimp only at he he'
    rw [List.map_map, List.mem_map] at he he'
    obtain ⟨c, hc, rfl⟩ := he
    obtain ⟨c', hc', he⟩ := he'
    refine hapart.1 c.addr (Or.inl ⟨c, hc, addressesEqual_refl _⟩) (Or.inl ⟨c', hc', ?_⟩)
    exact addressesEqual_iff.mpr he

theorem connFamily_wellFormed (x : Exporter) {s : State} (h : Inv s) (h6 : s.Inet6) (now : ℤ) {d : ConnDef}
    (hd : d.ok = true) : (x.connFamily s now d).WellFormed := by
  simp only [ConnDef.ok, Bool.and_eq_true, Bool.not_eq_true', List.contains_eq_mem, decide_eq_false_iff_not] at hd
  obtain ⟨⟨hname, hhelp⟩, -⟩ := hd
  have hkeys : ["group".toList, "remote".toList].all (fun k => k.all nameChar) = true := by decide
  have hkey : ∀ k ∈ ["group".toList, "remote".toList], Plain k := fun k hk =>
    plain_of_nameChar fun c hc => List.all_eq_true.mp (List.all_eq_true.mp hkeys k hk) c hc
  refine ⟨fun c hc => List.all_eq_true.mp hname c hc, hhelp, ?_, ?_⟩
  · intro sample hsample p hp
    obtain ⟨⟨g, c⟩, _, rfl⟩ := List.mem_map.mp hsample
    rcases List.mem_cons.mp hp with rfl | hp
    · exact ⟨hkey _ List.mem_cons_self, plain_natText _⟩
    · rw [List.mem_singleton.mp hp]
      exact ⟨hkey _ (List.mem_cons_of_mem _ List.mem_cons_self), plain_addrLabel _ _⟩
  · have hends := links_endpoints h
    rw [Exporter.connFamily, List.map_map]
    refine hends.of_map.map_on fun p hp q hq heq => ?_
    refine List.inj_on_of_nodup_map hends hp hq ?_
    have hfamily : ∀ p ∈ s.links, p.2.addr.ssFamily = afInet6 := by
      intro p hp
      obtain ⟨g, hg, hmem⟩ := List.mem_flatMap.mp hp
      obtain ⟨c, hc, rfl⟩ := List.mem_map.mp hmem
      exact h6 g hg c hc
    simp only [Function.comp, Exporter.connLabels, List.cons.injEq, Prod.mk.injEq, true_and, and_true] at heq
    exact addrLabel_injective (hfamily p hp) (hfamily q hq) heq.2

/-- The names of the families. -/
def familyNames : List Text :=
  (groupDefs kDefs).map (fun p => p.1.name) ++
    ["srtla_build_info".toList, "srtla_start_time_seconds".toList, "srtla_groups".toList,
      "srtla_groups_established".toList, "srtla_connections".toList, "srtla_auth_sources_blocked".toList] ++
    kConnDefs.map ConnDef.name

theorem familyNames_nodup : familyNames.Nodup := by
  unfold familyNames kDefs kConnDefs
  repeat rw [Def.entry_ofList]
  repeat rw [String.toList_ofList]
  decide +kernel

theorem families_names (x : Exporter) (s : State) (now : ℤ) : ((x.families s now).map Family.name).Nodup := by
  refine familyNames_nodup.sublist ?_
  rw [Exporter.families, List.map_append, List.map_append, List.map_map]
  refine (List.Sublist.refl _).append ?_
  cases x.detailed
  · exact List.nil_sublist _
  · rw [if_pos rfl, List.map_map]
    exact List.Sublist.refl _

theorem families_wellFormed (x : Exporter) (hversion : Plain x.version) {s : State} (h : Inv s)
    (h6 : s.Inet6) (now : ℤ) : ∀ f ∈ x.families s now, f.WellFormed := by
  intro f hf
  rcases List.mem_append.mp hf with hf | hf
  · rcases List.mem_append.mp hf with hf | hf
    · obtain ⟨p, hp, rfl⟩ := List.mem_map.mp hf
      exact counterFamily_wellFormed _ (List.all_eq_true.mp kDefs_ok p hp)
    · exact gauges_wellFormed x hversion s now f hf
  · cases hdetailed : x.detailed
    · rw [hdetailed, if_neg Bool.false_ne_true] at hf
      cases hf
    · rw [hdetailed, if_pos rfl] at hf
      obtain ⟨d, hd, rfl⟩ := List.mem_map.mp hf
      exact connFamily_wellFormed x h h6 now (List.all_eq_true.mp kConnDefs_ok d hd)

/-! ## Scrapes -/

/-- The packets of an input come from IPv6 addresses. -/
def Op.Inet6 : Op → Prop
  | .packet _ addr _ _ => addr.ssFamily = afInet6
  | _ => True

theorem step_inet6 {s : State} (h : Inv s) (h6 : s.Inet6) {op : Op} (hop : op.Inet6) : (step s op).1.Inet6 := by
  intro g' hg' c' hc'
  cases step_origin h op hg' with
  | old mem _ _ _ _ conns =>
    cases conns c' hc' with
    | old hc core =>
      rw [core.addr, Op.onConn_addr]
      exact h6 _ mem _ hc
    | joined input _ _ eq =>
      rw [input] at hop
      rw [eq]
      exact hop
  | created input _ eq =>
    rw [eq] at hc'
    cases hc'

/-- **Every scrape reads back.** After every run, a strict reader of the text format
    accepts what `render` writes and reads exactly the families of the state: every name
    once, every series once, and the values as they are. -/
theorem scrape_reads_back (x : Exporter) (hversion : Plain x.version) (ops : List Op)
    (h6 : ∀ op ∈ ops, op.Inet6) (now : ℤ) :
    read (x.render (receiver.run State.init ops) now) = some (x.families (receiver.run State.init ops) now) := by
  have hrun : Inv (receiver.run State.init ops) ∧ (receiver.run State.init ops).Inet6 := by
    refine receiver.run_invariant_if (P := fun s => Inv s ∧ s.Inet6) (C := fun _ op => op.Inet6) ?_
      ⟨inv_init, ?_⟩ ops ?_
    · intro s op hs hop
      exact ⟨run_inv hs.1 [op], step_inet6 hs.1 hs.2 hop⟩
    · intro g hg
      cases hg
    · intro e he
      obtain ⟨⟨before, after, his, -⟩, -⟩ := receiver.mem_hist he
      exact h6 _ (his ▸ by simp)
  rw [render_eq_print]
  exact read_print (families_wellFormed x hversion hrun.1 hrun.2 now) (families_names x _ now)

theorem colon_decimals_injective :
    Function.Injective fun a : Block 16 => ':' :: decimals ':' a.bytes := by
  intro a b h
  have hne : ∀ a : Block 16, a.bytes ≠ [] := fun a => List.ne_nil_of_length_eq_add_one a.length_eq
  exact Block.ext (decimals_inj (by decide) (hne a) (hne b) (List.cons.inj h).2)

theorem plain_colon_decimals (a : Block 16) : Plain (':' :: decimals ':' a.bytes) :=
  plain_colon_cons (plain_decimals (by decide) _)

/-- An injective text of IPv6 addresses, for the run on fixed inputs; the addresses
    there are IPv4 addresses, which `print_addr` prints with `inetNtop4`. -/
def sampleNtop6 : InetNtop6 where
  text a := ':' :: decimals ':' a.bytes
  injective := colon_decimals_injective
  colon _ := List.mem_cons_self
  plain := plain_colon_decimals

def sampleExporter : Exporter where
  detailed := true
  startTime := 0
  version := natText 1
  getsockname _ := none
  ntop6 := sampleNtop6

/-- Port 5000 of the IPv4 address `10.0.0.host`, as a dual-stack socket reports it. -/
def mappedAddr (host : UInt8) : SockaddrStorage :=
  { (default : SockaddrStorage) with
    ssFamily := afInet6
    port := 0x8813
    sin6Addr := ⟨List.replicate 10 0 ++ [0xFF, 0xFF, 10, 0, 0, host], rfl⟩ }

/-- A link registers from another address than the one that asked for the group. -/
theorem scrape_reads_back_mapped :
    let s := receiver.run State.init (handshake default default (mappedAddr 1) (mappedAddr 2) 0 0)
    (s.links.map fun l => addrLabel sampleExporter.ntop6 l.2.addr) = ["10.0.0.2:5000".toList] ∧
      read (sampleExporter.render s 5) = some (sampleExporter.families s 5) := by
  refine ⟨?_, scrape_reads_back sampleExporter (plain_natText 1) _ ?_ 5⟩
  · rw [State.links, (run_handshake default default (mappedAddr 1) (mappedAddr 2) 0 0).1]
    decide +kernel
  · intro op hop
    simp only [handshake, List.mem_cons, List.not_mem_nil, or_false] at hop
    rcases hop with rfl | rfl <;> rfl

end Srtla.Receiver
