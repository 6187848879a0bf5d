import LiveHighlight.Embedding.TreeLayer
import LiveHighlight.Proofs.Rendering
import LiveHighlight.Proofs.Resolving
import LiveHighlight.Proofs.Telling

-- Sessions over layers of trees. Whatever was edited, taken over and thrown away before, a finished
-- pass leaves the layer that reading the text from the start gives.

namespace LiveHighlight

def LayerCall.reads? : LayerCall → Option Text
  | .load t => some t
  | .edit _ => none
  | .refresh t _ _ _ => some t

theorem SpanSet.insert_occupied {spans : SpanSet} {new : Span} (proper : new.Proper) :
    (spans.insert new).isEmpty = false := by
  obtain ⟨r, member, -⟩ := place_holds new spans.spans
  rw [SpanSet.insert, if_neg (Nat.not_lt.mpr proper), SpanSet.isEmpty, List.isEmpty_eq_false_iff]
  exact List.ne_nil_of_mem member

theorem Session.edit_tracked {σ : Type} [Layer σ] {s next : Session σ} {e : Edit}
    (accepted : s.edit e = .ok next) : next.affected.isEmpty = false := by
  obtain ⟨splice, left, old, right, spliced⟩ := Session.edit_spliced accepted
  rw [Affected.isEmpty, spliced.affected]
  exact SpanSet.insert_occupied spliced.aligned.new

namespace Nesting

open Notice

variable {S L T : Type} [Compiling S L] [Parsing L T] {valid : Text → Prop}

def ValidReads (valid : Text → Prop) (calls : List LayerCall) : Prop :=
  ∀ call ∈ calls, ∀ t ∈ call.reads?, valid t

theorem ValidReads.front {calls more : List LayerCall} (held : ValidReads valid (calls ++ more)) :
    ValidReads valid calls := fun call member => held call (List.mem_append_left more member)

theorem ValidReads.last {calls : List LayerCall} {call : LayerCall} {t : Text}
    (held : ValidReads valid (calls ++ [call])) (reads : call.reads? = some t) : valid t :=
  held call (by simp) t reads

structure Sound (valid : Text → Prop) (s : Session (Recorded (TreeLayer S L T))) : Prop where
  agrees : s.Agrees
  named : s.layer.layer.catalogue.Named
  inStep : ValidReads valid s.layer.calls → s.layer.layer.InStep valid s.text
  settled : ValidReads valid s.layer.calls → s.config.resolveEmbedded = true →
    s.affected.isEmpty = true → s.layer.layer = TreeLayer.load s.layer.layer s.text

variable {s next : Session (Recorded (TreeLayer S L T))} {e : Edit}

theorem Sound.loaded (agrees : s.Agrees) (named : s.layer.layer.catalogue.Named)
    (last : ∃ earlier call, s.layer.calls = earlier ++ [call] ∧ call.reads? = some s.text)
    (layer : s.layer.layer = TreeLayer.load s.layer.layer s.text) : Sound valid s where
  agrees := agrees
  named := named
  inStep held := by
    obtain ⟨earlier, call, calls, reads⟩ := last
    have read : valid s.text := ValidReads.last (calls ▸ held) reads
    rw [layer]
    exact TreeLayer.load_inStep named read
  settled _ _ _ := layer

theorem load_again (l : TreeLayer S L T) (t : Text) : l.load t = (l.load t).load t :=
  (TreeLayer.load_alike (TreeLayer.load_from l t) t).symm

theorem start_sound {layer : TreeLayer S L T} (named : layer.catalogue.Named) (t : Text)
    (config : Config) : Sound valid (Session.start (Recorded.fresh layer) t config) :=
  .loaded rfl named ⟨[], .load t, rfl, rfl⟩ (load_again layer t)

theorem reload_sound (sound : Sound valid s) (t : Text) : Sound valid (s.reload t) :=
  .loaded rfl sound.named ⟨s.layer.calls, .load t, rfl, rfl⟩ (load_again s.layer.layer t)

theorem exchange_sound (sound : Sound valid s) {layer : Recorded (TreeLayer S L T)}
    (named : layer.layer.catalogue.Named) : Sound valid (s.exchange layer).1 :=
  .loaded sound.agrees named ⟨layer.calls, .load s.text, rfl, rfl⟩
    (load_again layer.layer s.text)

theorem edit_sound (sound : Sound valid s) (fits : e.Storable) (accepted : s.edit e = .ok next) :
    Sound valid next := by
  have agrees : next.Agrees :=
    Session.agrees_kept (fun _ => True) s next (.edit fits accepted) sound.agrees
  have tracked := Session.edit_tracked accepted
  obtain ⟨splice, taken, whole⟩ := Session.edit_parts accepted
  rw [sound.agrees.document, agrees.document] at taken
  have layer : next.layer = Layer.edit s.layer splice := by rw [whole]
  refine ⟨agrees, ?_, ?_, ?_⟩
  · rw [layer]
    exact sound.named
  · intro held
    rw [layer] at held ⊢
    exact TreeLayer.edit_inStep (sound.inStep held.front) taken
  · intro _ _ nothing
    rw [tracked] at nothing
    cases nothing

-- It does not matter whether the layer was asked or there was nothing to ask.
theorem refresh_loaded (faithful : Faithful L valid) (sound : Sound valid s)
    (held : ValidReads valid s.refresh.1.layer.calls)
    (embedded : s.config.resolveEmbedded = true) :
    s.refresh.1.layer.layer = TreeLayer.load s.refresh.1.layer.layer s.refresh.1.text := by
  revert held
  unfold Session.refresh
  split
  · rename_i nothing
    exact fun held => sound.settled held embedded nothing
  · intro held
    have caughtUp := TreeLayer.refresh_reads faithful (held.last rfl) (sound.inStep held.front)
      s.affected.spans
    change (s.layer.layer.refresh s.text s.affected.spans s.config.resolveEmbedded).1 =
      (s.layer.layer.refresh s.text s.affected.spans s.config.resolveEmbedded).1.load s.text
    rw [embedded, caughtUp]
    exact load_again s.layer.layer s.text

theorem refresh_sound (faithful : Faithful L valid) (sound : Sound valid s) :
    Sound valid s.refresh.1 := by
  have loaded := refresh_loaded faithful sound
  revert loaded
  unfold Session.refresh
  split
  · exact fun _ => sound
  · intro loaded
    have catalogue := (TreeLayer.refresh_from s.layer.layer s.text s.affected.spans
      s.config.resolveEmbedded).catalogue
    refine ⟨sound.agrees, catalogue ▸ sound.named, ?_, fun held embedded _ => loaded held embedded⟩
    exact fun held => TreeLayer.refresh_inStep faithful sound.named (held.last rfl)
      (sound.inStep held.front) s.affected.spans s.config.resolveEmbedded

theorem sound_kept (faithful : Faithful L valid) :
    Session.Kept (fun r : Recorded (TreeLayer S L T) => r.layer.catalogue.Named)
      (Sound valid) := by
  intro s next moves sound
  cases moves with
  | edit fits accepted => exact edit_sound sound fits accepted
  | reload t => exact reload_sound sound t
  | exchange allowed => exact exchange_sound sound allowed
  | refresh => exact refresh_sound faithful sound
  | finish =>
    have refreshed := refresh_sound faithful sound
    have config : s.refresh.1.config = s.config := Session.refresh_config s
    exact ⟨refreshed.agrees, refreshed.named, refreshed.inStep,
      fun held embedded _ => refresh_loaded faithful sound held (config ▸ embedded)⟩
  | unchanged => exact ⟨sound.agrees, sound.named, sound.inStep, sound.settled⟩

theorem drain_sound (faithful : Faithful L valid) {layer : TreeLayer S L T}
    (named : layer.catalogue.Named) (first : Text) (config : Config)
    {commands : List (Command (TreeLayer S L T))}
    (fits : ∀ command ∈ commands, command.Fits fun l => l.catalogue.Named) :
    Sound valid ((Queue.drain (Session.start layer first config) commands).1.recording
      (Queue.tell (Session.start layer first config) [loaded first] commands)) := by
  have sound := Queue.drain_keeps (sound_kept faithful) (start_sound named first config)
    (commands.map .recorded) (by
      intro command member
      obtain ⟨plain, present, rfl⟩ := List.mem_map.mp member
      have fit := fits plain present
      cases plain <;> exact fit)
  have whole := Queue.tell_recording (Session.start layer first config) [loaded first] commands
  exact whole ▸ sound

def ReadsValid (valid : Text → Prop) (notices : List Notice) : Prop :=
  ∀ n ∈ notices, ∀ t ∈ n.call.reads?, valid t

theorem ReadsValid.calls {notices : List Notice} (held : ReadsValid valid notices) :
    ValidReads valid (notices.map (·.call)) := by
  intro call member
  obtain ⟨n, present, rfl⟩ := List.mem_map.mp member
  exact held n present

theorem alike_kept (m : TreeLayer S L T) :
    Session.Kept (TreeLayer.Alike · m) (fun s => TreeLayer.Alike s.layer m) := by
  intro s next moves alike
  have refreshed : s.refresh.1.layer.Alike s.layer := by
    unfold Session.refresh
    split
    · exact .refl s.layer
    · exact TreeLayer.refresh_from _ _ _ _
  cases moves with
  | edit fits accepted =>
    obtain ⟨splice, -, whole⟩ := Session.edit_parts accepted
    have layer : next.layer = s.layer.edit splice := by rw [whole]; rfl
    rw [layer]
    exact (TreeLayer.edit_from s.layer splice).trans alike
  | reload t => exact (TreeLayer.load_from s.layer t).trans alike
  | exchange allowed => exact (TreeLayer.load_from _ s.text).trans allowed
  | refresh => exact refreshed.trans alike
  | finish => exact refreshed.trans alike
  | unchanged => exact alike

theorem run_alike (layer : TreeLayer S L T) (first : Text) (config : Config)
    {commands : List (Command (TreeLayer S L T))}
    (fits : ∀ command ∈ commands, command.Fits fun l => l.Alike layer) :
    layer.Alike (Queue.drain (Session.start layer first config) commands).1.layer :=
  (Queue.drain_keeps (s := Session.start layer first config) (alike_kept layer)
    (TreeLayer.load_from layer first) commands fits).symm

theorem pass_loads (faithful : Faithful L valid) {layer : TreeLayer S L T}
    (named : layer.catalogue.Named) {first : Text} {config : Config}
    (embedded : config.resolveEmbedded = true) {commands : List (Command (TreeLayer S L T))}
    (fits : ∀ command ∈ commands, command.Fits fun l => l.catalogue.Named) {t : Text}
    {wanted : Span}
    (held : ReadsValid valid (Queue.tell (Session.start layer first config) [Notice.loaded first]
      (commands ++ [.pass t wanted .never]))) :
    let s := (Queue.drain (Session.start layer first config) commands).1
    let final := (s.pass t wanted .never).1
    final.layer = TreeLayer.load final.layer t := by
  intro s final
  -- With the pass at its end the run is a run like any other.
  have all : ∀ command ∈ commands ++ [.pass t wanted .never],
      command.Fits fun l : TreeLayer S L T => l.catalogue.Named := by
    intro command member
    rcases List.mem_append.mp member with earlier | last
    · exact fits command earlier
    · cases List.mem_singleton.mp last
      trivial
  have sound := drain_sound faithful named first config all
  have configured := Queue.drain_keeps (s := Session.start layer first config)
    (Session.config_kept _ config) rfl _ all
  rw [Queue.drain_last] at sound configured
  have asks : final.config.resolveEmbedded = true :=
    (congrArg Config.resolveEmbedded configured).trans embedded
  have settled : TreeLayer.load final.layer final.text = final.layer :=
    (sound.settled held.calls asks rfl).symm
  have read : final.text = t := Session.finished_text _ t
  rw [← read, settled]

-- After any run over layers of trees, a pass over all of a text shows what a new session on that
-- text shows, and leaves the sublayers that reading it from the start finds, in their order.
theorem history_forgotten (faithful : Faithful L valid) (layer : TreeLayer S L T)
    (named : layer.catalogue.Named) (first : Text) (config : Config)
    (embedded : config.resolveEmbedded = true) (commands : List (Command (TreeLayer S L T)))
    (fits : ∀ command ∈ commands, command.Fits fun l => l.catalogue.Named) (t : Text)
    (held : ReadsValid valid (Queue.tell (Session.start layer first config) [Notice.loaded first]
      (commands ++ [.pass t ⟨0, Text.size t⟩ .never])))
    (other : TreeLayer S L T) (anew : Config)
    (alike : other.Alike (Queue.drain (Session.start layer first config) commands).1.layer) :
    let s := (Queue.drain (Session.start layer first config) commands).1
    ∃ next fresh result, s.pass t ⟨0, Text.size t⟩ .never = (next, some result) ∧
      (Session.start other t anew).pass t ⟨0, Text.size t⟩ .never = (fresh, some result) ∧
      next.layer.sublayers = (TreeLayer.load next.layer t).sublayers := by
  intro s
  have loaded := pass_loads faithful named embedded fits held
  have kept := Session.pass_keeps (alike_kept s.layer) (.refl s.layer) t ⟨0, Text.size t⟩ .never
  have made := Session.start_pass other t anew ⟨0, Text.size t⟩
  obtain ⟨next, passed, read⟩ := Session.pass_whole s t
  obtain ⟨fresh, begun, again⟩ := Session.pass_whole (Session.start other t anew) t
  dsimp only at loaded
  rw [passed] at loaded kept
  rw [begun] at made
  have same : next.layer = fresh.layer := by
    rw [loaded, made]
    exact TreeLayer.load_alike (kept.trans alike.symm) t
  refine ⟨next, fresh, _, passed, ?_, congrArg TreeLayer.sublayers loaded⟩
  rw [begun, Session.rendered_same same (read.trans again.symm)]

end Nesting

namespace Embedding

open Nesting (history_forgotten)
open LiveHighlight.Json (NodePattern ChildPattern)

theorem Language.ofSource_name {s : LanguageSource} {l : Language} (compiled : ofSource s = .ok l) :
    l.name = s.name := by
  unfold ofSource at compiled
  split at compiled
  · cases compiled
  · dsimp only at compiled
    split at compiled
    · cases compiled
      rfl
    · split at compiled
      · cases compiled
      · cases compiled
        rfl

theorem filled_named (sources : List LanguageSource) :
    (sources.foldl Catalogue.enter Nesting.Catalogue.empty : Catalogue).Named :=
  Nesting.Catalogue.filled_named (fun _ _ => Language.ofSource_name) sources

def content (capture : String) : NodePattern :=
  .named .string [.child none false (.named .stringContent [] false [capture])] false []

-- Values that are texts are read in the language that their key names.
def pairs : Language :=
  ⟨"json", [], [], some [⟨.named .pair
    [.child (some .key) false (content "injection.language"),
      .child (some .value) false (content "injection.content")] false [], []⟩]⟩

def numbers : Language := ⟨"j2", [⟨.named .number [] false ["number"], []⟩], ["number"], none⟩

def both : Catalogue := ⟨[("j2", .ready numbers), ("json", .ready pairs)]⟩

def keyed : TreeLayer := ⟨both, pairs, none, [], [], 3⟩

def pairSource : LanguageSource := ⟨"json", [],
  some ("(pair key: (string (string_content) @injection.language)" ++
    " value: (string (string_content) @injection.content))").toList⟩

def numberSource : LanguageSource := ⟨"j2", "(number) @number".toList, none⟩

def registry : Catalogue := [numberSource, pairSource].foldl Catalogue.enter Nesting.Catalogue.empty

def registered : TreeLayer := ⟨registry, pairs, none, [], [], 3⟩

theorem language_faithful : Nesting.Faithful Language fun _ => True := fun _ _ _ _ _ _ _ => rfl

def pairText (key value : List Char) : Text :=
  ['\x7b', '"'] ++ key ++ ['"', ':', ' ', '"'] ++ value ++ ['"', '\x7d']

def growing : List (Command TreeLayer) :=
  [.edit (.replace ⟨2, 4⟩ ['j', '2']),
    .pass (pairText ['j', '2'] ['[', '1', ']']) ⟨0, 7⟩ .afterRefresh,
    .edit (.insert 10 [',', '2'])]

theorem growing_fits (fresh : TreeLayer → Prop) : ∀ command ∈ growing, command.Fits fresh := by
  simp only [growing, List.forall_mem_cons]
  exact ⟨(by decide : 2 < 0x8000000000000000), trivial, (by decide : 2 < 0x8000000000000000), nofun⟩

-- A key comes to name a language, one pass is cancelled over it, and the value grows.
theorem history_forgotten_registered :
    let s := (Queue.drain (Session.start registered (pairText ['n', 'o'] ['[', '1', ']']) {})
      growing).1
    let t := pairText ['j', '2'] ['[', '1', ',', '2', ']']
    ∃ next fresh result, s.pass t ⟨0, Text.size t⟩ .never = (next, some result) ∧
      (Session.start registered t {}).pass t ⟨0, Text.size t⟩ .never = (fresh, some result) ∧
      next.layer.sublayers = (Nesting.TreeLayer.load next.layer t).sublayers ∧
      result.highlights = [⟨.numbers, ⟨9, 10⟩⟩, ⟨.numbers, ⟨11, 12⟩⟩] := by
  intro s t
  have shown : (s.pass t ⟨0, Text.size t⟩ .never).2.map (·.highlights) =
      some [⟨.numbers, ⟨9, 10⟩⟩, ⟨.numbers, ⟨11, 12⟩⟩] := by decide +kernel
  obtain ⟨next, fresh, result, passed, anew, whole⟩ := history_forgotten language_faithful
    registered (filled_named [numberSource, pairSource]) (pairText ['n', 'o'] ['[', '1', ']']) {}
    rfl growing (growing_fits _) t (fun _ _ _ _ => trivial) registered {}
    (Nesting.run_alike registered _ {} (growing_fits _))
  have same : s.pass t ⟨0, Text.size t⟩ .never = (next, some result) := passed
  rw [same] at shown
  exact ⟨next, fresh, result, passed, anew, whole, Option.some.inj shown⟩

-- The numbers are entered under a name other than their own.
def astray : TreeLayer :=
  { registered with catalogue := (Catalogue.enter .empty pairSource).enterAs "j" numberSource }

-- A key that comes to be the own name of its language keeps the sublayer. Whoever reads the text
-- for the first time knows no language of that name.
theorem history_remembered : ¬ ∀ (layer : TreeLayer) (first : Text) (config : Config),
    config.resolveEmbedded = true → ∀ commands : List (Command TreeLayer),
      (∀ command ∈ commands, command.Fits fun _ => True) → ∀ (t : Text) (anew : Config),
        let s := (Queue.drain (Session.start layer first config) commands).1
        (s.pass t ⟨0, Text.size t⟩ .never).2 =
          ((Session.start s.layer t anew).pass t ⟨0, Text.size t⟩ .never).2 := by
  intro claim
  let first := pairText ['j'] ['[', '1', ']']
  let commands : List (Command TreeLayer) := [.edit (.insert 3 ['2'])]
  let s := (Queue.drain (Session.start astray first {}) commands).1
  let t := pairText ['j', '2'] ['[', '1', ']']
  have kept : (s.pass t ⟨0, Text.size t⟩ .never).2 = some ⟨[⟨.numbers, ⟨9, 10⟩⟩], ⟨0, 13⟩⟩ := by
    decide +kernel
  have anew : ((Session.start s.layer t {}).pass t ⟨0, Text.size t⟩ .never).2 =
      some ⟨[], ⟨0, 13⟩⟩ := by decide +kernel
  have fits : ∀ command ∈ commands, command.Fits fun _ => True :=
    List.forall_mem_singleton.mpr (by decide : 1 < 0x8000000000000000)
  have equal := kept.symm.trans ((claim astray first {} rfl commands fits t {}).trans anew)
  simp at equal

end Embedding

end LiveHighlight
