import Glaber.Ipc.ServiceRead
import Glaber.Lib.Runs

namespace Glaber.Ipc.Service

open Glaber.Lib.Runs

def Event.accepted : Event → List Message
  | .send m _ => [m]
  | .writeReady _ => []
  | .readReady _ => []

def accepted (events : List Event) : List Message := events.flatMap Event.accepted

structure Streaming (messages : List Message) (s : State) (pushed todo : List Message) : Prop where
  sending : Sending s.client
  split : messages = pushed ++ todo
  queue : s.receiver.rxQueue = pushed.map Message.received
  resting : Resting todo s.receiver (s.channel ++ s.client.unsent)

lemma streaming_init : Streaming [] init [] [] where
  sending := sending_init
  split := rfl
  queue := rfl
  resting :=
    { buffer := List.length_replicate ..
      offset := le_rfl
      bytes := Nat.zero_le _
      header := rfl
      none := fun _ => rfl
      holds := fun _ _ h => absurd h.symm (List.cons_ne_nil _ _)
      stream := rfl
      leftover := rfl
      incomplete := fun ⟨_, _, h, _⟩ => List.cons_ne_nil _ _ h.symm }

lemma Resting.accept {todo : List Message} {r : Receiver} {coming : List UInt8} (h : Resting todo r coming) (m : Message) :
    Resting (todo ++ [m]) r (coming ++ m.wire) := by
  have hstream : (wires (todo ++ [m])).drop r.rxBytes = r.leftover ++ (coming ++ m.wire) := by
    rw [wires_append, List.drop_append_of_le_length h.bytes_le, h.stream, wires_cons, wires_nil, List.append_nil,
      List.append_assoc]
  have hnil : todo ++ [m] = [] → r.rxBytes = 0 := fun hz => absurd hz (List.concat_ne_nil m todo)
  cases todo with
  | nil =>
    have hzero := h.none rfl
    refine ⟨⟨h.buffer, h.offset, h.bytes, h.header, hnil, ?_, hstream⟩, h.leftover, ?_⟩
    · intro m' rest _
      rw [hzero]
      exact ⟨h.header, Nat.zero_le _, rfl, fun hle => absurd hle (by decide : ¬ headerSize ≤ 0)⟩
    · rintro ⟨m', rest, -, hb⟩
      have hpos : 0 < headerSize := by decide
      rw [hzero, Message.length_wire] at hb
      omega
  | cons m' rest =>
    refine ⟨⟨h.buffer, h.offset, h.bytes, h.header, hnil, ?_, hstream⟩, h.leftover, ?_⟩
    · intro m'' rest' htodo
      obtain ⟨rfl, -⟩ := List.cons.inj htodo
      exact h.holds _ rest rfl
    · rintro ⟨m'', rest', htodo, hb⟩
      obtain ⟨rfl, -⟩ := List.cons.inj htodo
      exact h.incomplete ⟨_, rest, rfl, hb⟩

lemma Streaming.follow {messages pushed todo : List Message} {s : State} (h : Streaming messages s pushed todo) (e : Event) :
    ∃ s' pushed' todo', step s e = some s' ∧ Streaming (messages ++ e.accepted) s' pushed' todo' := by
  cases e with
  | send m results =>
    obtain ⟨client, fd, hrun, hsending, hbytes⟩ := zbxIpcClientSend_spec h.sending ⟨s.channel, results⟩ m
    have hresting := h.resting.accept m
    rw [← hbytes] at hresting
    refine ⟨{ s with client := client, channel := fd.channel }, pushed, todo ++ [m], by rw [step, hrun]; rfl,
      hsending, ?_, h.queue, hresting⟩
    rw [h.split, List.append_assoc]
    rfl
  | writeReady results =>
    obtain ⟨client, fd, hrun, hsending, hbytes⟩ := ipcClientWrite_spec h.sending ⟨s.channel, results⟩
    have hresting := h.resting
    rw [← hbytes] at hresting
    refine ⟨{ s with client := client, channel := fd.channel }, pushed, todo, by rw [step, hrun]; rfl,
      hsending, ?_, h.queue, hresting⟩
    rw [h.split]
    exact List.append_nil _
  | readReady results =>
    have hbefore : Resting todo s.receiver ((⟨s.channel, results⟩ : Fd).channel ++ s.client.unsent) := h.resting
    obtain ⟨receiver, fd, done, rest, hrun, htodo, hqueue, hresting⟩ := ipcClientRead_spec hbefore
    refine ⟨{ s with receiver := receiver, channel := fd.channel }, pushed ++ done, rest, by rw [step, hrun]; rfl,
      h.sending, ?_, ?_, hresting⟩
    · rw [h.split, htodo, ← List.append_assoc]
      exact List.append_nil _
    · rw [hqueue, h.queue, List.map_append]

theorem run_streaming (events : List Event) :
    ∃ s, run events = some s ∧ ∃ pushed todo, Streaming (accepted events) s pushed todo := by
  have hinit : ∃ pushed todo, Streaming (accepted []) init pushed todo := ⟨[], [], streaming_init⟩
  apply foldlM_total (fun past s => ∃ pushed todo, Streaming (accepted past) s pushed todo) ?_ events hinit
  rintro past s e ⟨pushed, todo, h⟩
  obtain ⟨s', pushed', todo', hstep, h'⟩ := h.follow e
  refine ⟨s', hstep, pushed', todo', ?_⟩
  rwa [accepted, List.flatMap_append, List.flatMap_singleton]

lemma Streaming.all {messages pushed todo : List Message} {s : State} (h : Streaming messages s pushed todo)
    (hpending : s.client.txBytes = 0) (hchannel : s.channel = []) : todo = [] := by
  cases todo with
  | nil => rfl
  | cons m rest =>
    have hlen := h.resting.length
    have hlt := incomplete_lt (h.resting.holds m rest rfl) h.resting.incomplete
    rw [h.resting.leftover, hchannel, h.sending.unsent_nil hpending, List.append_nil, List.length_nil, wires_cons,
      List.length_append] at hlen
    omega

theorem run_delivers (events : List Event) :
    ∃ s, run events = some s ∧ s.receiver.rxQueue <+: (accepted events).map Message.received ∧
      (s.client.txBytes = 0 → s.channel = [] → s.receiver.rxQueue = (accepted events).map Message.received) := by
  obtain ⟨s, hrun, pushed, todo, h⟩ := run_streaming events
  refine ⟨s, hrun, ?_, ?_⟩
  · rw [h.queue, h.split, List.map_append]
    exact List.prefix_append _ _
  · intro hpending hchannel
    rw [h.queue, h.split, h.all hpending hchannel, List.append_nil]

end Glaber.Ipc.Service
