import DuplexRpc.Proofs.Connection.Requests
import DuplexRpc.Proofs.Framing.Header
import DuplexRpc.Proofs.Messages

namespace DuplexRpc

namespace Connection
open Framing (Item stream framed)
variable {c after origin : Connection} {action : Action} {actions : List Action}

def Action.chunk : Action → List UInt8
  | .receive chunk => chunk
  | _ => []

-- All octets that a run receives.
def received (actions : List Action) : List UInt8 := actions.flatMap Action.chunk

def decoderAfter (c : Connection) : Action → Framing.Decoder
  | .receive chunk => c.decoder.next.2.push chunk
  | .readNext | .readEnd => c.decoder.next.2
  | _ => c.decoder

theorem step_decoder (moved : c.step action = some after) : after.decoder = c.decoderAfter action := by
  cases action with
  | receive chunk =>
    obtain ⟨_, _, decoder, next, rfl⟩ := receive_cases moved
    simp only [decoderAfter, next]
  | readNext =>
    obtain ⟨_, _, item, decoder, next, rfl⟩ := readNext_cases moved
    rw [takeItem_fields]
    simp only [decoderAfter, next]
  | readEnd =>
    obtain ⟨_, _, decoder, next, rfl⟩ := readEnd_cases moved
    rw [close_fields]
    simp only [decoderAfter, next]
  | _ => exact (congrArg Connection.decoder (step_footprint moved)).trans rfl

-- What was received is what the decoder has taken and what it buffers.
theorem step_took {octets : List UInt8} (took : c.decoder.Took octets c.frames) (moved : c.step action = some after) :
    after.decoder.Took (octets ++ action.chunk) after.frames := by
  rw [step_decoder moved, step_frames moved]
  cases action with
  | receive chunk =>
    obtain ⟨_, _, decoder, next, _⟩ := receive_cases moved
    simpa [decoderAfter, frame?, next, Action.chunk] using (took.next next).push chunk
  | readNext =>
    obtain ⟨_, _, item, decoder, next, _⟩ := readNext_cases moved
    have taken := took.next next
    cases item <;> simpa [decoderAfter, frame?, next, Action.chunk, Framing.Item.body?] using taken
  | readEnd =>
    obtain ⟨_, _, decoder, next, _⟩ := readEnd_cases moved
    simpa [decoderAfter, frame?, next, Action.chunk] using took.next next
  | _ => simpa [decoderAfter, frame?, Action.chunk] using took

theorem runs_took {config : Config} {served called : Registry} {handlers : List (String × MethodKind)}
    (runs : Runs (initial config served called handlers) actions c) : c.decoder.Took (received actions) c.frames := by
  induction runs with
  | nil => exact Framing.Decoder.took_initial _
  | snoc _ moved ih =>
    simpa [received] using step_took ih moved

def Event.wrote? : Event → Option (Message × List UInt8)
  | .wrote m octets => some (m, octets)
  | _ => none

-- The messages given to the stream, and the octets they were given as.
def wrote (c : Connection) : List Message := (c.log.filterMap Event.wrote?).map Prod.fst
def written (c : Connection) : List UInt8 := (c.log.filterMap Event.wrote?).flatMap Prod.snd

def wrote? (c : Connection) : Action → Option Message
  | .write => c.correlator.outbound.queued.head?
  | _ => none

theorem events_wrote (c : Connection) (action : Action) :
    (c.events action).filterMap Event.wrote? = (c.wrote? action).toList.map fun m => (m, c.frame m) := by
  cases action with
  | readNext =>
    simp only [events, wrote?]
    split
    · exact itemEvents_quiet Event.wrote? (fun _ => rfl) (fun _ => rfl) (fun _ => rfl) ..
    · rfl
  | takeNote => cases queued : c.notes <;> simp [events, queued, wrote?, Event.wrote?]
  | pollTask task handler => exact pollEvents_quiet Event.wrote? (fun _ => rfl) (fun _ => rfl) ..
  | write => cases queued : c.correlator.outbound.queued <;> simp [events, queued, wrote?, Event.wrote?]
  | _ => rfl

theorem step_wrote (moved : c.step action = some after) : after.wrote = c.wrote ++ (c.wrote? action).toList := by
  rw [wrote, step_log moved, List.filterMap_append, events_wrote]
  cases c.wrote? action <;> simp [wrote]

theorem step_written (moved : c.step action = some after) :
    after.written = c.written ++ (c.wrote? action).toList.flatMap c.frame := by
  rw [written, step_log moved, List.filterMap_append, events_wrote]
  cases c.wrote? action <;> simp [written]

theorem runs_written {config : Config} {served called : Registry} {handlers : List (String × MethodKind)}
    (runs : Runs (initial config served called handlers) actions c) :
    c.written = stream (c.wrote.map fun m => framed config.contentType m.encode) := by
  induction runs with
  | nil => rfl
  | @snoc before after actions action prior moved ih =>
    have same : before.config = config := (runs_forward prior).config
    rw [step_written moved, step_wrote moved, List.map_append, Framing.stream_append, ih]
    refine congrArg _ ?_
    cases before.wrote? action with
    | none => rfl
    | some m => simp [frame, same, framed, Framing.encode_eq]

end Connection

namespace Framing
open Json (read)
variable {contentType : Option String} {octets : List UInt8} {bodies : List (List UInt8)} {messages : List Message}

def readable (body : List UInt8) : Bool := (read body).toOption.isSome

theorem framed_sound (plain : ¬ terminator <:+: typeLine contentType) (m : Message) :
    (framed contentType m.encode).Sound := by
  refine ⟨isHeader plain _, ?_, Json.octets_line _⟩
  have object : m.encode = Json.octets (.object (Json.sortMembers m.members)) := congrArg Json.octets m.toJson_eq
  change m.encode ≠ []
  rw [object]
  cases Json.sortMembers m.members <;> exact List.cons_ne_nil _ _

theorem encode_whole (m : Message) : Whole readable m.encode := by
  have object : m.encode = Json.octets (.object (Json.sortMembers m.members)) := congrArg Json.octets m.toJson_eq
  rw [object]
  constructor
  · intro one two cut more
    rw [readable, Json.read_shorter cut more]
    rfl
  · intro rest
    rw [readable, Json.read_longer]
    rfl

-- However a stream of messages is cut, the bodies that come out of it and can be read are texts
-- of those messages, each once and in order.
theorem readable_sublist (plain : ¬ terminator <:+: typeLine contentType) {d : Decoder} (took : d.Took octets bodies)
    (cut : octets <+: stream (messages.map fun m => framed contentType m.encode)) :
    (bodies.filter readable).Sublist (messages.map Message.encode) := by
  obtain ⟨s, delivered, rfl, _⟩ := took
  have sound : ∀ f ∈ messages.map fun m => framed contentType m.encode, f.Sound := by
    intro f present
    obtain ⟨m, _, rfl⟩ := List.mem_map.mp present
    exact framed_sound plain m
  have whole : ∀ f ∈ messages.map fun m => framed contentType m.encode, Whole readable f.body := by
    intro f present
    obtain ⟨m, _, rfl⟩ := List.mem_map.mp present
    exact encode_whole m
  obtain ⟨front, back, split, _, sub⟩ := delivered_sublist sound whole delivered ((List.prefix_append ..).trans cut)
  have bodies' : messages.map Message.encode = (messages.map fun m => framed contentType m.encode).map Frame.body := by
    rw [List.map_map]
    rfl
  rw [bodies', split, List.map_append]
  exact sub.trans (List.sublist_append_left ..)

end Framing
end DuplexRpc
