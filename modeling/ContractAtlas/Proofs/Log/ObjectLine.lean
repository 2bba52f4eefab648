import ContractAtlas.Log.Line
import ContractAtlas.Proofs.Json.Printable
import ContractAtlas.Proofs.Json.Setting
import ContractAtlas.Proofs.Json.Writable

/-!
# Records on a line of their own

The record of a call that is laid out as an object stands on one line of printable characters,
whatever its message and its fields hold, and the line is read as the object again.  The object
starts with the time, the level, the logger and the message.  Behind them stand the fields that
were set, but for those whose name belongs to the record, is hidden behind an underscore or has
its place at the start; and an exception that was caught counts as the last field that was set.

So no field can take the place of one of the first four.  A field named `levelname` or `name`
is another matter: it is no field but the record's own value, which it replaces.

Not every call has a line.  A field named `getMessage` is an extra field like others, and yet
it keeps the message from being rendered.
-/

namespace ContractAtlas.Log

/-- Whether fields of a name stand behind the first four. -/
def isTrailingName (name : String) : Bool :=
  isExtraName name && !Record.leadingNames.contains name

theorem isTrailingName_exception : isTrailingName "exception" = true := by decide

namespace Call

variable {call : Call} {message : String} {exception : Option Caught} {moment : Moment}

/-! ## The fields of an object -/

/-- The first four fields.  A setting of `levelname` or `name` is the record's own level or
logger. -/
def ownFields (call : Call) (message : String) (moment : Moment) : List (String × Json) := [
  ("timestamp", .ofString moment.stamp),
  ("level", (call.settings.reverse.lookup "levelname").getD (.ofString call.level.name)),
  ("logger", (call.settings.reverse.lookup "name").getD (.ofString call.logger)),
  ("message", .ofString message)]

/-- What is set behind the first four fields, the exception last. -/
def trailing (call : Call) (exception : Option Caught) : List (String × Json) :=
  (call.settings.filter fun field => isTrailingName field.1) ++
    (exception.map fun caught => ("exception", .ofString caught.line)).toList

/-- All fields of the object. -/
def shownFields (call : Call) (message : String) (exception : Option Caught) (moment : Moment) :
    List (String × Json) :=
  call.ownFields message moment ++ Json.lastSet (call.trailing exception)

theorem isTrailingName_of_mem_trailing {field : String × Json}
    (hfield : field ∈ call.trailing exception) : isTrailingName field.1 = true := by
  rcases List.mem_append.mp hfield with hfield | hfield
  · exact (List.mem_filter.mp hfield).2
  · obtain ⟨caught, -, rfl⟩ := Option.map_eq_some_iff.mp (Option.mem_toList.mp hfield)
    exact isTrailingName_exception

theorem lookup_fields (call : Call) (name : String) :
    call.fields.lookup name = call.settings.reverse.lookup name :=
  Json.lookup_lastSet call.settings name

theorem leadingFields_recordWith :
    (call.recordWith message exception).leadingFields moment = call.ownFields message moment := by
  rw [Record.leadingFields, recordWith, ownFields, lookup_fields, lookup_fields]

theorem object_recordWith : (call.recordWith message exception).object moment =
    .record (call.shownFields message exception moment) := by
  have hextra : ((call.recordWith message exception).extraFields.filter
        fun field => !Record.leadingNames.contains field.1) =
      Json.lastSet (call.settings.filter fun field => isTrailingName field.1) := by
    rw [Record.extraFields, List.filter_filter, ← Json.filter_lastSet]
    apply List.filter_congr
    intro field _
    rw [isTrailingName, Bool.and_comm]
  have hleading : ∀ entry ∈ call.ownFields message moment, entry.1 ≠ "exception" := by
    simp [ownFields]
  rw [Record.object, Record.objectFields, hextra, leadingFields_recordWith, shownFields, trailing]
  cases exception with
  | none => simp [recordWith]
  | some caught => simp [recordWith, Json.setField_append hleading, Json.lastSet_concat]

theorem nodup_names_shownFields :
    ((call.shownFields message exception moment).map (·.1)).Nodup := by
  have hown : (call.ownFields message moment).map (·.1) = Record.leadingNames := rfl
  rw [shownFields, List.map_append, hown, List.nodup_append]
  refine ⟨by decide, Json.nodup_names_lastSet _, ?_⟩
  rintro leading hleading _ hname rfl
  obtain ⟨field, hfield, rfl⟩ := List.mem_map.mp hname
  have htrailing := isTrailingName_of_mem_trailing (Json.mem_of_mem_lastSet hfield)
  rw [isTrailingName, List.contains_iff_mem.mpr hleading] at htrailing
  simp at htrailing

theorem mem_of_lookup {name : String} {value : Json} {fields : List (String × Json)}
    (hfound : fields.lookup name = some value) : (name, value) ∈ fields := by
  obtain ⟨before, after, rfl, -⟩ := List.lookup_eq_some_iff.mp hfound
  exact List.mem_append_right _ List.mem_cons_self

/-- Every value of the object was set, or is a string. -/
theorem carried_shownFields (hcarried : ∀ field ∈ call.settings, field.2.Carried) :
    ∀ field ∈ call.shownFields message exception moment, field.2.Carried := by
  have hown : ∀ name string,
      ((call.settings.reverse.lookup name).getD (.ofString string)).Carried := by
    intro name string
    cases hfound : call.settings.reverse.lookup name with
    | none => exact .ofString string
    | some value => exact hcarried _ (List.mem_reverse.mp (mem_of_lookup hfound))
  refine List.forall_mem_append.mpr ⟨?_, fun field hfield => ?_⟩
  · simp only [ownFields, List.forall_mem_cons]
    exact ⟨.ofString _, hown _ _, hown _ _, .ofString _, by simp⟩
  · rcases List.mem_append.mp (Json.mem_of_mem_lastSet hfield) with hfield | hfield
    · exact hcarried field (List.mem_of_mem_filter hfield)
    · obtain ⟨caught, -, rfl⟩ := Option.map_eq_some_iff.mp (Option.mem_toList.mp hfield)
      exact .ofString caught.line

/-! ## The line of an object -/

theorem objectLine_eq_ok_iff {record : Record} {line : String} :
    record.objectLine moment = .ok line ↔ record.fields.lookup "getMessage" = none ∧
      (record.object moment).check = .ok () ∧ line = (record.object moment).plain := by
  rw [Record.objectLine, renderable, Json.written]
  cases record.fields.lookup "getMessage" with
  | some value => simp [bind, Except.bind]
  | none =>
      cases (record.object moment).check with
      | error fault => simp [bind, Except.bind, Except.mapError]
      | ok _ => simp [bind, Except.bind, Except.mapError, pure, Except.pure, Json.plain, eq_comm]

theorem record_eq_ok_iff {record : Record} : call.record = .ok record ↔
    call.fields.lookup "getMessage" = none ∧ ∃ message exception, call.message = .ok message ∧
      call.caught = .ok exception ∧ record = call.recordWith message exception := by
  rw [Call.record, renderable]
  cases call.fields.lookup "getMessage" with
  | some value => simp [bind, Except.bind]
  | none =>
      cases call.message with
      | error fault => simp [bind, Except.bind]
      | ok message =>
          cases call.caught with
          | error fault => simp [bind, Except.bind]
          | ok exception => simp [bind, Except.bind, pure, Except.pure, eq_comm]

/-- A call has a line if its message is rendered, its exception is one, and the object can be
written; the line is the text of the object. -/
theorem line_object_eq_ok_iff {line : String} : call.line .object moment = .ok line ↔
    call.settings.reverse.lookup "getMessage" = none ∧
      ∃ message exception, call.message = .ok message ∧ call.caught = .ok exception ∧
        (∀ field ∈ call.shownFields message exception moment, field.2.FitsInside) ∧
        line = (Json.record (call.shownFields message exception moment)).plain := by
  have hline : call.line .object moment = .ok line ↔
      ∃ record, call.record = .ok record ∧ record.objectLine moment = .ok line := by
    rw [Call.line]
    cases call.record <;> simp [bind, Except.bind]
  simp only [hline, record_eq_ok_iff, objectLine_eq_ok_iff, ← lookup_fields]
  constructor
  · rintro ⟨_, ⟨hshown, message, exception, hmessage, hcaught, rfl⟩, -, hcheck, rfl⟩
    rw [object_recordWith, Json.check_record_eq_ok_iff] at hcheck
    exact ⟨hshown, message, exception, hmessage, hcaught, hcheck, by rw [object_recordWith]⟩
  · rintro ⟨hshown, message, exception, hmessage, hcaught, hfits, rfl⟩
    refine ⟨_, ⟨hshown, message, exception, hmessage, hcaught, rfl⟩, hshown, ?_, ?_⟩
    · rw [object_recordWith, Json.check_record_eq_ok_iff]
      exact hfits
    · rw [object_recordWith]

/-- The text of an object that can be written is read as the object. -/
theorem read_plain_shownFields (hcarried : ∀ field ∈ call.settings, field.2.Carried)
    (hfits : ∀ field ∈ call.shownFields message exception moment, field.2.FitsInside) :
    Json.read (Json.record (call.shownFields message exception moment)).plain.toList =
      .ok (.record (call.shownFields message exception moment)) := by
  have hportable : (Json.record (call.shownFields message exception moment)).Portable :=
    .record nodup_names_shownFields fun field hfield =>
      (carried_shownFields hcarried field hfield).portable (hfits field hfield).short
  have hnesting : (Json.record (call.shownFields message exception moment)).nesting ≤
      Json.nestingLimit :=
    Json.nesting_record_le_iff.mpr fun field hfield =>
      Nat.le_of_lt_succ (hfits field hfield).nesting
  have hgap : ∀ c ∈ Json.Style.plain.gap, Json.isSpace c = true :=
    Text.forall_mem_of_all (by decide)
  obtain ⟨chars, hchars, hread⟩ := hportable.exists_read_write hgap hnesting
  have hpoints := (Json.write_plain _).1.symm.trans hchars
  have hline := List.map_injective_iff.mpr (fun _ _ heq => by injection heq) hpoints
  rw [hline, hread]

/-- A text is one line that tells of a call with a message and an exception, and of nothing
else. -/
structure Tells (call : Call) (message : String) (exception : Option Caught) (moment : Moment)
    (line : String) : Prop where
  printable : ∀ c ∈ line.toList, 0x20 ≤ c.toNat ∧ c.toNat ≤ 0x7E
  /-- The line is the text of an object that starts with the record's own fields.  The other
  fields are those that were set, in the order in which they were first, and each of them has
  the value that was set last. -/
  denotes : ∃ extras,
    Json.read line.toList = .ok (.record (call.ownFields message moment ++ extras)) ∧
    extras.map (·.1) = ((call.trailing exception).map (·.1)).eraseDups ∧
    ∀ name, extras.lookup name = (call.trailing exception).reverse.lookup name

/-- What becomes of a call whose record is laid out as an object. -/
structure ToldAsObject (call : Call) (moment : Moment) : Prop where
  /-- A field of this name leaves no line. -/
  hidden : ∀ value, call.settings.reverse.lookup "getMessage" = some value →
    call.line .object moment = .error (.notCallable (kindOf value))
  /-- Without such a field, a call with a message and an exception has a line exactly if what
  it shows can be written. -/
  exists_line_iff : call.settings.reverse.lookup "getMessage" = none →
    ∀ message exception, call.message = .ok message → call.caught = .ok exception →
      ((∃ line, call.line .object moment = .ok line) ↔
        ∀ field ∈ call.shownFields message exception moment, field.2.FitsInside)
  /-- The line tells of the call. -/
  tells : ∀ line, call.line .object moment = .ok line →
    ∃ message exception, call.message = .ok message ∧ call.caught = .ok exception ∧
      call.Tells message exception moment line

/-- The line of a call is printable and tells of the call, and none of its settings can break
the line or take the place of one of the first four fields; but some of them leave no line. -/
theorem toldAsObject {call : Call} (hcarried : ∀ field ∈ call.settings, field.2.Carried)
    (moment : Moment) : call.ToldAsObject moment where
  hidden := by
    intro value hvalue
    rw [← lookup_fields] at hvalue
    simp [Call.line, Call.record, renderable, hvalue, bind, Except.bind]
  exists_line_iff := by
    intro hshown message exception hmessage hcaught
    simp [line_object_eq_ok_iff, hshown, hmessage, hcaught]
  tells := by
    intro line hline
    obtain ⟨-, message, exception, hmessage, hcaught, hfits, rfl⟩ :=
      line_object_eq_ok_iff.mp hline
    exact ⟨message, exception, hmessage, hcaught, {
      printable := (Json.write_plain _).2
      denotes := ⟨_, read_plain_shownFields hcarried hfits, Json.names_lastSet _,
        Json.lookup_lastSet _⟩ }⟩

/-- A call whose fields try to forge a record: its level and its message, a second line, and an
exception of their own. -/
def forgingCall : Call := {
  level := .info
  logger := "contractviz.é𝔵"
  template := "drawn\n%s"
  values := [.str (Text.ofString "\"\x7d\n\x7b\x7f")]
  settings := [
    ("request", .null), ("level", .ofString "CRITICAL"), ("message", .ofString "deleted"),
    ("exception", .ofString "none"), ("_hidden", .bool true), ("lineno", .int 1),
    ("request", .arr [.int (-10), .record [("path", .ofString "/\\\u2028")]])]
  exception := some ⟨"ValueError", "too deep"⟩ }

theorem carried_forgingCall : ∀ field ∈ forgingCall.settings, field.2.Carried := by
  have hpath : (Json.record [("path", .ofString "/\\\u2028")]).Carried :=
    .obj (by decide) (List.forall_mem_singleton.mpr ⟨"path".toList, rfl⟩)
      (List.forall_mem_singleton.mpr (.ofString _))
  have hrequest : (Json.arr [.int (-10), .record [("path", .ofString "/\\\u2028")]]).Carried :=
    .arr (List.forall_mem_cons.mpr ⟨.int _, by simp [hpath]⟩)
  simp only [forgingCall, List.forall_mem_cons]
  exact ⟨.null, .ofString _, .ofString _, .ofString _, .bool _, .int _, hrequest, by simp⟩

/-- A moment in winter. -/
def january : Moment := ⟨2024, 1, 2, 3, 4, 5, 678901⟩

theorem toldAsObject_forgingCall :
    (∀ field ∈ forgingCall.settings, field.2.Carried) ∧
    (forgingCall.trailing forgingCall.exception).map (·.1) =
      ["request", "exception", "request", "exception"] ∧
    ∃ line, forgingCall.line .object january = .ok line ∧
      ∃ message, forgingCall.Tells message forgingCall.exception january line := by
  have htold := toldAsObject carried_forgingCall january
  have hmessage : forgingCall.message = .ok "drawn\n\"\x7d\n\x7b\x7f" := rfl
  have hcaught : forgingCall.caught = .ok forgingCall.exception := rfl
  obtain ⟨line, hline⟩ := (htold.exists_line_iff rfl _ _ hmessage hcaught).mpr (by decide +kernel)
  obtain ⟨message, exception, -, hexception, htells⟩ := htold.tells line hline
  obtain rfl : forgingCall.exception = exception := Except.ok.inj (hcaught.symm.trans hexception)
  exact ⟨carried_forgingCall, by decide, line, hline, message, htells⟩

/-- A call with a field that hides what renders its message. -/
def hidingCall : Call := {
  level := .info
  logger := "contractviz.test"
  template := "m"
  settings := [("getMessage", .ofString "x")] }

theorem not_every_call_told :
    ¬ ∀ call : Call, (∀ field ∈ call.settings, field.2.Carried) →
      ∃ line, call.line .object january = .ok line := by
  intro hall
  obtain ⟨line, hline⟩ := hall hidingCall (by simp [hidingCall, Json.Carried.ofString])
  have hfault : hidingCall.line .object january = .error (.notCallable "str") := rfl
  rw [hfault] at hline
  contradiction

end Call

end ContractAtlas.Log
