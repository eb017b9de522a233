import Chaperone.Process.Event
import Chaperone.Proofs.Document.Records
import Chaperone.Proofs.Json.RoundTrip

/-!
# An event from its document form

Every event is decoded from its document form (`Event.decode_toDatum`), and from the JSON text that
writes it (`Event.decode_render`).  The other members of an event are decoded once its kind is
known, and of an exit status once its own kind is; the names of the two tags differ, and no field
has the name of a tag.
-/

namespace Chaperone

namespace Decode

variable (delivery : Delivery)

theorem list_text (texts : List String) :
    list text delivery (.array (texts.map .string)) = .ok texts := by
  show (texts.map Datum.string).mapM (text delivery) = _
  induction texts with
  | nil => rfl
  | cons first rest ih =>
    rw [List.map_cons, List.mapM_cons, ih]
    rfl

theorem nat32_toNat (n : UInt32) : nat32 delivery (.int n.toNat) = .ok n.toNat := by
  have hmost := n.toNat_lt
  rw [nat32, intWithin, if_pos (by omega)]
  rfl

theorem int32_toInt (n : Int32) : int32 delivery (.int n.toInt) = .ok n.toInt := by
  have hleast := n.le_toInt
  have hmost := n.toInt_lt
  rw [int32, intWithin, if_pos (by omega)]

end Decode

theorem OutputStream.decode_label (delivery : Delivery) (stream : OutputStream) :
    OutputStream.decode delivery (.string stream.label) = .ok stream := by
  cases stream <;> rfl

namespace ExitStatus

/-- A record with one number. -/
theorem read_number (record name : String) (n : Int32) :
    Fields.read record [.needed name Decode.int32] .buffered (.object [(name, .int n.toInt)]) =
        .ok [(name, .int n.toInt)] ∧
      Fields.get [(name, .int n.toInt)] .buffered name Decode.int32 = .ok n.toInt := by
  have hint := Decode.int32_toInt .buffered n
  refine ⟨Fields.read_of_fits record (.cons ⟨rfl, check_needed name hint⟩ .nil) ?_, ?_⟩
  · exact List.pairwise_singleton _ _
  · exact Fields.get_of_lookup List.lookup_cons_self hint

theorem decode_toDatum (delivery : Delivery) (status : ExitStatus) :
    decode delivery status.toDatum = .ok status := by
  cases status with
  | exited code =>
    obtain ⟨hread, hget⟩ := read_number "struct variant ExitStatus::Exited" "code" code
    have hcontent : decodeNumber .exited (.object [("code", .int code.toInt)]) =
        .ok (.exited (Int32.ofInt code.toInt)) := by
      simp only [decodeNumber, hread]
      exact congrArg (Except.map _) hget
    rw [Int32.ofInt_toInt] at hcontent
    have htag : Decode.tag kinds delivery (.string "exited") = .ok .exited := rfl
    exact (Decode.tagged_of_front "ExitStatus" decodeNumber htag (by simp) rfl).trans hcontent
  | signaled signal =>
    obtain ⟨hread, hget⟩ := read_number "struct variant ExitStatus::Signaled" "signal" signal
    have hcontent : decodeNumber .signaled (.object [("signal", .int signal.toInt)]) =
        .ok (.signaled (Int32.ofInt signal.toInt)) := by
      simp only [decodeNumber, hread]
      exact congrArg (Except.map _) hget
    rw [Int32.ofInt_toInt] at hcontent
    have htag : Decode.tag kinds delivery (.string "signaled") = .ok .signaled := rfl
    exact (Decode.tagged_of_front "ExitStatus" decodeNumber htag (by simp) rfl).trans hcontent

end ExitStatus

namespace Event

def details : Happening → Fields
  | .started pid command args =>
    [("pid", pidDatum pid), ("command", .string command), ("args", .array (args.map .string))]
  | .spawnFailed error => [("error", .string error)]
  | .output pid stream content =>
    [("pid", pidDatum pid), ("stream", .string stream.label), ("content", .string content)]
  | .exited pid status => [("pid", pidDatum pid), ("status", status.toDatum)]

def fields (event : Event) : Fields :=
  ("name", .string event.name) ::
    (details event.happening ++ [("timestamp", .string event.timestamp)])

def kind (event : Event) : Kind :=
  match event.happening with
  | .started _ _ _ => .started
  | .spawnFailed _ => .spawnFailed
  | .output _ _ _ => .output
  | .exited _ _ => .exited

theorem toDatum_eq (event : Event) :
    ∃ tag, event.toDatum = .object (("eventType", .string tag) :: event.fields) ∧
      Decode.tag kinds .streamed (.string tag) = .ok event.kind := by
  obtain ⟨name, happening, timestamp⟩ := event
  cases happening <;> exact ⟨_, rfl, rfl⟩

theorem fits_fields (event : Event) : Fits .buffered event.kind.rules event.fields := by
  have htext (name text : String) :
      (FieldRule.needed name Decode.text).check .buffered (.string text) = .ok () := rfl
  have hpid (pid : Pid) : (FieldRule.needed "pid" Decode.nat32).check .buffered (pidDatum pid) =
      .ok () := check_needed "pid" (Decode.nat32_toNat .buffered pid)
  obtain ⟨name, happening, timestamp⟩ := event
  refine .cons ⟨rfl, htext "name" name⟩ ?_
  have hlast : Fits .buffered [.needed "timestamp" Decode.text]
      [("timestamp", .string timestamp)] := .cons ⟨rfl, htext "timestamp" timestamp⟩ .nil
  cases happening with
  | started pid command args =>
    exact .cons ⟨rfl, hpid pid⟩ (.cons ⟨rfl, htext "command" command⟩
      (.cons ⟨rfl, check_needed "args" (Decode.list_text .buffered args)⟩ hlast))
  | spawnFailed error => exact .cons ⟨rfl, htext "error" error⟩ hlast
  | output pid stream content =>
    exact .cons ⟨rfl, hpid pid⟩
      (.cons ⟨rfl, check_needed "stream" (OutputStream.decode_label .buffered stream)⟩
        (.cons ⟨rfl, htext "content" content⟩ hlast))
  | exited pid status =>
    exact .cons ⟨rfl, hpid pid⟩
      (.cons ⟨rfl, check_needed "status" (ExitStatus.decode_toDatum .buffered status)⟩ hlast)

theorem nodup_rules (kind : Kind) : (kind.rules.map (·.name)).Nodup := by
  cases kind <;> decide

theorem happening_fields (event : Event) :
    event.kind.happening event.fields = .ok event.happening := by
  have hpid {fields : Fields} {pid : Pid} (h : fields.lookup "pid" = some (pidDatum pid)) :
      decodePid fields = .ok pid := by
    rw [decodePid, Fields.get_of_lookup h (Decode.nat32_toNat .buffered pid)]
    exact congrArg Except.ok (UInt32.ofNat_toNat)
  obtain ⟨name, happening, timestamp⟩ := event
  cases happening with
  | started pid command args =>
    have hargs := Fields.get_of_lookup
      (rfl : (fields ⟨name, .started pid command args, timestamp⟩).lookup "args" = _)
      (Decode.list_text .buffered args)
    simp only [kind, Kind.happening]
    rw [hpid rfl, hargs]
    rfl
  | spawnFailed error => rfl
  | output pid stream content =>
    have hstream := Fields.get_of_lookup
      (rfl : (fields ⟨name, .output pid stream content, timestamp⟩).lookup "stream" = _)
      (OutputStream.decode_label .buffered stream)
    simp only [kind, Kind.happening]
    rw [hpid rfl, hstream]
    rfl
  | exited pid status =>
    have hstatus := Fields.get_of_lookup
      (rfl : (fields ⟨name, .exited pid status, timestamp⟩).lookup "status" = _)
      (ExitStatus.decode_toDatum .buffered status)
    simp only [kind, Kind.happening]
    rw [hpid rfl, hstatus]
    rfl

theorem decodeContent_fields (event : Event) :
    decodeContent event.kind (.object event.fields) = .ok event := by
  have hread := Fields.read_of_fits event.kind.record (fits_fields event) (nodup_rules _)
  have htimestamp : event.fields.get .buffered "timestamp" Decode.text = .ok event.timestamp := by
    obtain ⟨name, happening, timestamp⟩ := event
    cases happening <;> rfl
  have hname : event.fields.get .buffered "name" Decode.text = .ok event.name := rfl
  have hparts : (do
      return { name := ← event.fields.get .buffered "name" Decode.text
               happening := ← event.kind.happening event.fields
               timestamp := ← event.fields.get .buffered "timestamp" Decode.text } :
        Decoded Event) = .ok event := by
    rw [hname, happening_fields, htimestamp]
    rfl
  rw [decodeContent, hread]
  exact hparts

theorem itemsHeld_text (texts : List String) : Datum.itemsHeld (texts.map .string) = true := by
  induction texts with
  | nil => rfl
  | cons first rest ih =>
    rw [List.map_cons, Datum.itemsHeld, ih]
    rfl

theorem membersHeld_fields (event : Event) : Datum.membersHeld event.fields = true := by
  obtain ⟨name, happening, timestamp⟩ := event
  cases happening with
  | started pid command args =>
    have hargs := itemsHeld_text args
    simp [fields, details, pidDatum, Datum.membersHeld, Datum.isHeld, hargs]
  | spawnFailed error => rfl
  | output pid stream content => rfl
  | exited pid status => cases status <;> rfl

/-- **Every event is decoded from its document form.** -/
theorem decode_toDatum (event : Event) : decode .streamed event.toDatum = .ok event := by
  obtain ⟨tag, hdatum, htag⟩ := event.toDatum_eq
  have hothers : ∀ member ∈ event.fields, member.1 ≠ "eventType" := by
    have hnames : ∀ name ∈ event.kind.rules.map (·.name), name ≠ "eventType" := by
      cases event.kind <;> decide
    rw [← Fields.names_of_fits (fits_fields event)] at hnames
    exact fun member hmember => hnames member.1 (List.mem_map_of_mem hmember)
  rw [hdatum]
  exact (Decode.tagged_of_front "ProcessEvent" decodeContent htag hothers
    (membersHeld_fields event)).trans event.decodeContent_fields

/-! ### The written form -/

theorem plainItems_text (depth : Nat) (texts : List String) :
    Json.PlainItems depth (texts.map .string) := by
  induction texts with
  | nil => trivial
  | cons first rest ih => exact ⟨trivial, ih⟩

theorem exact_pid (pid : Pid) : Json.Exact pid.toNat := by
  have hmost := pid.toNat_lt
  rw [Json.Exact, Json.maxExact]
  omega

theorem exact_int32 (n : Int32) : Json.Exact n.toInt := by
  have hleast := n.le_toInt
  have hmost := n.toInt_lt
  rw [Json.Exact, Json.maxExact]
  omega

/-- The document form of an event is written without loss. -/
theorem plain_toDatum (event : Event) : Json.Plain Json.maxDepth event.toDatum := by
  obtain ⟨name, happening, timestamp⟩ := event
  cases happening with
  | started pid command args =>
    exact ⟨by decide, trivial, trivial, exact_pid pid, trivial, ⟨by decide, plainItems_text _ args⟩,
      trivial, trivial⟩
  | spawnFailed error => exact ⟨by decide, trivial, trivial, trivial, trivial, trivial⟩
  | output pid stream content =>
    exact ⟨by decide, trivial, trivial, exact_pid pid, trivial, trivial, trivial, trivial⟩
  | exited pid status =>
    refine ⟨by decide, trivial, trivial, exact_pid pid, ?_, trivial, trivial⟩
    cases status with
    | exited code => exact ⟨by decide, trivial, exact_int32 code, trivial⟩
    | signaled signal => exact ⟨by decide, trivial, exact_int32 signal, trivial⟩

/-- **Every event is decoded from the text that writes it.** -/
theorem decode_render (event : Event) :
    Json.decode decode (Json.render event.toDatum) = .ok event :=
  Json.decode_render (plain_toDatum event) (decode_toDatum event)

end Event

end Chaperone
