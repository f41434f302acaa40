import Fieldbus.Proofs.Config.Checks
import Fieldbus.Proofs.Literal.Write
import Fieldbus.Proofs.Session.Traffic
import Fieldbus.Simulation.Segment

/-!
# Identifiers on the wire

An object identifier has ten bits for the type and 22 for the instance on the wire, and whatever is
more is lost there without notice.  So every way on which an identifier comes to the link has to see
to it that it fits: the names and numbers of a path, the settings of the local device, the limits of
a Who-Is, the texts to be written and the walks that go on by themselves.

## Main definitions

* `Message.identifiers`, `Message.limits?`, `Message.write?`: what is in a message.
* `Message.Fits`: nothing is lost of the identifiers in a message.

## Main results

* `Operation.Demands.within`: operations hand messages over that fit.
* `Scene.identifiers_inRange`: in whatever happens, all messages do.
-/

namespace Fieldbus

/-! ### What is in a message -/

namespace Message

/-- The objects that a message names. -/
def identifiers : Message → List ObjectIdentifier
  | .unconfirmed _ (.whoIs _ _) => []
  | .unconfirmed _ (.iAm announcement) => [announcement.id]
  | .confirmed _ _ (.read request) => [request.object]
  | .confirmed _ _ (.write request) => [request.object]

/-- The limits of a Who-Is. -/
def limits? : Message → Option (Option UInt32 × Option UInt32)
  | .unconfirmed _ (.whoIs low high) => some (low, high)
  | .unconfirmed _ (.iAm _) | .confirmed _ _ _ => none

/-- The write that a message asks for. -/
def write? : Message → Option WriteRequest
  | .confirmed _ _ (.write request) => some request
  | .confirmed _ _ (.read _) | .unconfirmed _ _ => none

end Message

/-- Both limits are instance numbers, or there are none. -/
def LimitsFit (low high : Option UInt32) : Prop :=
  (low = none ∧ high = none) ∨ ∃ lowest highest,
    low = some lowest ∧ high = some highest ∧ lowest ≤ maxInstance ∧ highest ≤ maxInstance

/-- A write is one that a caller asked for: its octets are those of the value that the text of the
caller stands for, and an identifier in it fits the wire. -/
def WriteRequest.AskedIn (history : List Moment) (request : WriteRequest) : Prop :=
  ∃ address path text priority resolved value,
    .begin (.write address path text priority) ∈ history ∧ path.resolve = .ok resolved ∧
      Literal.write text resolved.datatype path.index = .ok value ∧
      request = ⟨⟨resolved.type, path.number⟩, resolved.property, path.index, value.encode,
        priority⟩ ∧
      ∀ id, value = .objectIdentifier id → id.InRange

/-- Nothing is lost of the identifiers in a message, and a write is one that was asked for. -/
structure Message.Fits (history : List Moment) (message : Message) : Prop where
  identifiers : ∀ id ∈ message.identifiers, id.InRange
  limits : ∀ low high, message.limits? = some (low, high) → LimitsFit low high
  write : ∀ request, message.write? = some request → request.AskedIn history

namespace Message.Fits

variable {history : List Moment}

theorem concat {message : Message} (h : message.Fits history) (moment : Moment) :
    message.Fits (history ++ [moment]) := by
  refine ⟨h.identifiers, h.limits, fun request hrequest => ?_⟩
  obtain ⟨address, path, text, priority, resolved, value, hbegin, hasked⟩ :=
    h.write request hrequest
  exact ⟨address, path, text, priority, resolved, value, List.mem_append_left _ hbegin, hasked⟩

theorem of_whoIs {low high : Option UInt32} (h : LimitsFit low high) (destination : Destination) :
    Fits history (.unconfirmed destination (.whoIs low high)) :=
  ⟨nofun, fun _ _ heq => by cases heq; exact h, nofun⟩

theorem of_iAm {announcement : Announcement} (h : announcement.id.InRange)
    (destination : Destination) : Fits history (.unconfirmed destination (.iAm announcement)) :=
  ⟨fun _ hmem => List.mem_singleton.mp hmem ▸ h, nofun, nofun⟩

theorem of_read {request : ReadRequest} (h : request.object.InRange) (mac : Mac) (id : InvokeId) :
    Fits history (.confirmed mac id (.read request)) :=
  ⟨fun _ hmem => List.mem_singleton.mp hmem ▸ h, nofun, nofun⟩

theorem of_write {request : WriteRequest} (h : request.object.InRange)
    (hasked : request.AskedIn history) (mac : Mac) (id : InvokeId) :
    Fits history (.confirmed mac id (.write request)) :=
  ⟨fun _ hmem => List.mem_singleton.mp hmem ▸ h, nofun, fun _ heq => by cases heq; exact hasked⟩

end Message.Fits

/-! ### Where identifiers come from -/

theorem ObjectIdentifier.inRange_device {number : UInt32} (h : number ≤ maxInstance) :
    (⟨.device, number⟩ : ObjectIdentifier).InRange :=
  ⟨(by decide : ObjectType.device.code < 1024), h⟩

theorem PropertyPath.inRange_of_resolve {path : PropertyPath} {resolved : Schema.Resolved}
    (hresolve : path.resolve = .ok resolved) (hnumber : path.number ≤ maxInstance) :
    (⟨resolved.type, path.number⟩ : ObjectIdentifier).InRange := by
  refine ⟨?_, hnumber⟩
  rw [resolve] at hresolve
  split at hresolve
  · rename_i found hfound
    cases hresolve
    obtain ⟨type, htype, hfound⟩ := Option.bind_eq_some_iff.mp hfound
    obtain ⟨property, -, hfound⟩ := Option.bind_eq_some_iff.mp hfound
    obtain ⟨datatype, -, hfound⟩ := Option.bind_eq_some_iff.mp hfound
    cases hfound
    exact ObjectType.code_lt_of_ofName? htype
  · cases hresolve

/-- Settings that are accepted give the local device an identifier that fits. -/
theorem Config.inRange_of_resolve {config : Config} {parameters : LinkParameters}
    {identity : LocalDevice} (h : config.resolve = .ok (parameters, identity)) :
    identity.id.InRange := by
  obtain ⟨hholds, hresolved⟩ := resolve_eq_ok_iff.mp h
  cases hresolved
  exact ObjectIdentifier.inRange_device (UInt32.le_iff_toNat_le.mpr (hholds .instanceNumber))

theorem limitsFit_instanceRange (low high : Option UInt32) :
    LimitsFit (instanceRange low high).1 (instanceRange low high).2 := by
  have hmin (limit : UInt32) : min limit maxInstance ≤ maxInstance := by
    change (if limit ≤ maxInstance then limit else maxInstance) ≤ maxInstance
    split
    · assumption
    · exact UInt32.le_refl _
  cases low with
  | none =>
    cases high with
    | none => exact .inl ⟨rfl, rfl⟩
    | some highest => exact .inr ⟨_, _, rfl, rfl, hmin _, hmin _⟩
  | some lowest => exact .inr ⟨_, _, rfl, rfl, hmin _, hmin _⟩

/-- Operations hand messages over that fit. -/
theorem Operation.Demands.within {operation : Operation} {command : Command}
    (h : operation.Demands command) {history : List Moment} (hbegin : .begin operation ∈ history) :
    command.Within (Message.Fits history) := by
  cases h with
  | @read path resolved hresolve hnumber address mac ticket =>
    have hobject := PropertyPath.inRange_of_resolve hresolve hnumber
    exact ⟨fun id => .of_read hobject mac id, trivial⟩
  | @write path resolved text value hresolve hnumber hwritten address mac priority ticket =>
    have hobject := PropertyPath.inRange_of_resolve hresolve hnumber
    have hvalue : Literal.write text resolved.datatype path.index = .ok value := by
      rw [Session.writtenValue] at hwritten
      split at hwritten
      · rename_i hread
        exact hread.trans (congrArg Except.ok (Except.ok.inj hwritten))
      · cases hwritten
    have hinner (id : ObjectIdentifier) (hid : value = .objectIdentifier id) : id.InRange := by
      rcases Literal.isOf_of_write hvalue with ⟨-, hnull⟩ | hof
      · rw [hnull] at hid
        cases hid
      · exact hof.inRange id hid
    exact ⟨fun id => .of_write hobject
      ⟨address, path, text, priority, resolved, value, hbegin, hresolve, hvalue, rfl, hinner⟩ mac id,
      trivial⟩
  | enumerate hnumber address mac timeout report =>
    have hdevice := ObjectIdentifier.inRange_device hnumber
    exact ⟨fun id => .of_read hdevice mac id, fun id index => .of_read hdevice mac id⟩
  | discover timeout station low high window =>
    exact .of_whoIs (limitsFit_instanceRange low high) (whoIsDestination station)

/-! ### Whatever happens -/

namespace Scene

variable {σ : Type} [Link σ]

/-- What is asked of a session fits, at whatever time. -/
theorem licenses_fits : Licenses Message.Fits where
  concat h moment := h.concat moment
  announces hresolve := .of_iAm (Config.inRange_of_resolve hresolve) _
  demands hbegin hdemands := hdemands.within hbegin

theorem keeps_after (link : σ) (history : List Moment) :
    ((Scene.onLink (⟨link, []⟩ : Tapped σ)).after history).session.Keeps
      (Message.Fits history) := licenses_fits.keeps_after link history

/-- **No identifier is cut on the wire.**  Whatever happens to a session, over whatever link, every
message handed to the link names objects whose types have ten bits and whose instance numbers have
22; the limits of a Who-Is are instance numbers, both or none; and every write is one that a caller
asked for, where an identifier in the value that is written fits as well.  So all identifiers are
read back from the wire as they were.  To listen in on the link makes no difference. -/
theorem identifiers_inRange (link : σ) (history : List Moment) :
    let scene := (Scene.onLink (⟨link, []⟩ : Tapped σ)).after history
    scene.mapLink Tapped.link = (Scene.onLink link).after history ∧
    ∀ message, .sent message ∈ scene.session.link.log →
      (∀ id ∈ message.identifiers, id.InRange ∧ ObjectIdentifier.ofWord id.toWord = id) ∧
      (∀ low high, message.limits? = some (low, high) →
        (low = none ∧ high = none) ∨ ∃ lowest highest,
          low = some lowest ∧ high = some highest ∧
            lowest ≤ maxInstance ∧ highest ≤ maxInstance) ∧
      ∀ request, message.write? = some request →
        ∃ address path text priority resolved value,
          .begin (.write address path text priority) ∈ history ∧ path.resolve = .ok resolved ∧
            Literal.write text resolved.datatype path.index = .ok value ∧
            request = ⟨⟨resolved.type, path.number⟩, resolved.property, path.index, value.encode,
              priority⟩ ∧
            ∀ id, value = .objectIdentifier id →
              id.InRange ∧ ObjectIdentifier.ofWord id.toWord = id := by
  intro scene
  refine ⟨(mapLink_after Tapped.isView_link _ history).symm, fun message hsent => ?_⟩
  have hfits := (keeps_after link history).sent message hsent
  have hback {id : ObjectIdentifier} (h : id.InRange) :
      id.InRange ∧ ObjectIdentifier.ofWord id.toWord = id :=
    ⟨h, ObjectIdentifier.ofWord_toWord h⟩
  refine ⟨fun id hid => hback (hfits.identifiers id hid), hfits.limits, fun request hrequest => ?_⟩
  obtain ⟨address, path, text, priority, resolved, value, hbegin, hresolve, hvalue, hrequest,
    hinner⟩ := hfits.write request hrequest
  exact ⟨address, path, text, priority, resolved, value, hbegin, hresolve, hvalue, hrequest,
    fun id hid => hback (hinner id hid)⟩

/-- A session that announces itself, reads, writes an identifier into a slot of a commanded value,
enumerates and discovers up to a number that no device has. -/
theorem identifiers_inRange_of_busy_session :
    let history : List Moment :=
      [.start (.forStation 1 "/dev/ttyS1"), .announce,
        .begin (.read (.station 4) ⟨"analog-input", 4194303, "present-value", none⟩),
        .begin (.write (.station 4) ⟨"analog-output", 7, "priority-array", some 16⟩
          "id: proprietary-1023 : 4194303" none),
        .begin (.enumerate (.station 4) 4194303 100),
        .begin (.discover 100 none (some 5) (some 4294967295)), .work .obey, .work .obey,
        .work .obey, .work .obey, .work .obey]
    let scene := (Scene.onLink (⟨{}, []⟩ : Tapped Simulation.Segment)).after history
    let write : WriteRequest :=
      ⟨⟨.analogOutput, 7⟩, ⟨87⟩, some 16, [196, 255, 255, 255, 255], none⟩
    let messages : List Message :=
      [.unconfirmed .broadcast (.iAm ⟨⟨.device, 599⟩, 1024, .none, 15⟩),
        .confirmed 4 0 (.read ⟨⟨.analogInput, 4194303⟩, ⟨85⟩, none⟩), .confirmed 4 1 (.write write),
        .confirmed 4 2 (.read ⟨⟨.device, 4194303⟩, .objectList, some 0⟩),
        .unconfirmed .broadcast (.whoIs (some 5) (some maxInstance))]
    scene.session.link.log.tail = messages.map .sent ∧
      (∀ message ∈ messages, ∀ id ∈ message.identifiers,
        id.InRange ∧ ObjectIdentifier.ofWord id.toWord = id) ∧
      ∃ text, ∃ value : Atom,
        (∃ address path priority, .begin (.write address path text priority) ∈ history) ∧
          write.octets = value.encode ∧ ∀ id, value = .objectIdentifier id → id.InRange := by
  intro history scene write messages
  have hlog : scene.session.link.log.tail = messages.map .sent := by decide +kernel
  have hsent : ∀ message ∈ messages, .sent message ∈ scene.session.link.log := fun message hmem =>
    List.mem_of_mem_tail (hlog ▸ List.mem_map_of_mem hmem)
  have hfits := (identifiers_inRange ({} : Simulation.Segment) history).2
  obtain ⟨address, path, text, priority, resolved, value, hbegin, -, -, hwrite, hinner⟩ :=
    (hfits (.confirmed 4 1 (.write write)) (hsent _ (by simp [messages]))).2.2 write rfl
  exact ⟨hlog, fun message hmem => (hfits message (hsent message hmem)).1, text, value,
    ⟨address, path, priority, hbegin⟩, congrArg WriteRequest.octets hwrite,
    fun id hid => (hinner id hid).1⟩

end Scene

end Fieldbus
