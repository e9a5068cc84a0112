import KeyBroker.Event
import KeyBroker.Text.Blank
import KeyBroker.Text.Parts

/-! # Filters of the log

A filter says down to which level records are shown. It is written as directives between commas: a
level, which holds for all topics, the start of the name of a topic, or such a start, an equals sign
and a level. Behind a slash may stand a phrase that shown records contain. Of the directives that
hold for a topic, the one with the longest name decides. Main statements: what is shown is admitted
by the directive with the longest name of those that hold for its topic; a filter that is off shows
nothing; and without a phrase a record is shown exactly if its level is admitted for its topic.
-/

namespace KeyBroker

/-! ### Levels -/

/-- Down to which level records are shown. -/
inductive Verbosity where
  | off
  | error
  | warn
  | info
  | debug
  | trace
  deriving DecidableEq, Repr

namespace Verbosity

/-- The verbosity with a given name, in letters of either case. -/
def ofName? (name : List Char) : Option Verbosity :=
  match String.ofList (name.map Char.toLower) with
  | "off" => some off
  | "error" => some error
  | "warn" => some warn
  | "info" => some info
  | "debug" => some debug
  | "trace" => some trace
  | _ => none

/-- How many levels are shown. -/
def depth : Verbosity → Nat
  | off => 0
  | error => 1
  | warn => 2
  | info => 3
  | debug => 4
  | trace => 5

end Verbosity

/-- The place of a level, the gravest first. -/
def Level.rank : Level → Nat
  | error => 1
  | warn => 2
  | info => 3
  | debug => 4

/-- Whether records of a level are shown. -/
def Verbosity.admits (v : Verbosity) (l : Level) : Bool := l.rank ≤ v.depth

theorem Verbosity.off_admits (l : Level) : Verbosity.off.admits l = false := by
  cases l <;> rfl

/-! ### Directives -/

/-- What a filter says about the topics whose names start in some way, or about all. -/
structure Directive where
  /-- How the names start. -/
  name : Option (List Char)
  /-- Down to which level their records are shown. -/
  verbosity : Verbosity
  deriving DecidableEq, Repr

namespace Directive

/-- Whether a directive holds for a topic. -/
def holds (d : Directive) (topic : String) : Bool :=
  match d.name with
  | none => true
  | some name => name.isPrefixOf topic.toList

/-- The length of the name, by which directives go before each other. -/
def size (d : Directive) : Nat := (d.name.getD []).length

/-- Directives with one more, which takes the place of one with the same name. -/
def insert (d : Directive) : List Directive → List Directive
  | [] => [d]
  | e :: rest => if e.name = d.name then d :: rest else e :: insert d rest

/-- Of the directives that hold for a topic, the one with the longest name, of those the last. -/
def decisive (topic : String) : List Directive → Option Directive
  | [] => none
  | d :: rest =>
    match decisive topic rest with
    | some e => if d.holds topic && e.size < d.size then some d else some e
    | none => if d.holds topic then some d else none

/-- Reads a directive. -/
def read? (text : List Char) : Option Directive :=
  match Text.parts '=' text with
  | [name] =>
    match Verbosity.ofName? name with
    | some v => some ⟨none, v⟩
    | none => some ⟨some name, .trace⟩
  | [name, level] =>
    let level := Text.trim level
    if level.isEmpty then some ⟨some name, .trace⟩
    else (Verbosity.ofName? level).map fun v => ⟨some name, v⟩
  | _ => none

variable {topic : String} {ds : List Directive} {d : Directive}

theorem holds_eq_false_of_decisive (h : decisive topic ds = none) :
    ∀ e ∈ ds, e.holds topic = false := by
  induction ds with
  | nil =>
    intro e he
    cases he
  | cons e rest ih =>
    rw [decisive] at h
    split at h
    · split at h <;> cases h
    · next hrest =>
      split at h
      · cases h
      · next hnot =>
        intro c hc
        rcases List.mem_cons.1 hc with rfl | hc
        · exact Bool.eq_false_iff.2 hnot
        · exact ih hrest c hc

/-- The directive that decides holds for the topic, and none with a longer name does. -/
theorem of_decisive (h : decisive topic ds = some d) :
    d ∈ ds ∧ d.holds topic = true ∧ ∀ e ∈ ds, e.holds topic = true → e.size ≤ d.size := by
  induction ds generalizing d with
  | nil => cases h
  | cons e rest ih =>
    rw [decisive] at h
    split at h
    · next c hrest =>
      obtain ⟨member, holds, longest⟩ := ih hrest
      split at h
      · next hlonger =>
        obtain rfl := Option.some.inj h
        rw [Bool.and_eq_true, decide_eq_true_eq] at hlonger
        refine ⟨List.mem_cons_self, hlonger.1, ?_⟩
        intro other hother hholds
        rcases List.mem_cons.1 hother with rfl | hother
        · exact Nat.le_refl _
        · exact Nat.le_trans (longest other hother hholds) (Nat.le_of_lt hlonger.2)
      · next hshorter =>
        obtain rfl := Option.some.inj h
        refine ⟨List.mem_cons_of_mem e member, holds, ?_⟩
        intro other hother hholds
        rcases List.mem_cons.1 hother with rfl | hother
        · rw [hholds, Bool.true_and, decide_eq_true_eq] at hshorter
          exact Nat.not_lt.1 hshorter
        · exact longest other hother hholds
    · next hrest =>
      split at h
      · next hholds =>
        obtain rfl := Option.some.inj h
        refine ⟨List.mem_cons_self, hholds, ?_⟩
        intro other hother hother_holds
        rcases List.mem_cons.1 hother with rfl | hother
        · exact Nat.le_refl _
        · rw [holds_eq_false_of_decisive hrest other hother] at hother_holds
          cases hother_holds
      · cases h

end Directive

/-! ### Filters -/

/-- A filter of the log. -/
structure LogFilter where
  directives : List Directive
  /-- What shown records contain. -/
  phrase : Option (List Char) := none
  deriving DecidableEq, Repr

namespace LogFilter

/-- The variable of the environment that holds a filter. -/
def variableName : String := "RUST_LOG"

/-- Whether a phrase occurs in a text. -/
def occurs (phrase : List Char) : List Char → Bool
  | [] => phrase.isEmpty
  | c :: rest => phrase.isPrefixOf (c :: rest) || occurs phrase rest

/-- The directives in their written form; those that cannot be read are left out. -/
def directivesOf (text : List Char) : List Directive :=
  let parts := (Text.parts ',' text).map Text.trim
  let read := (parts.filter fun part => !part.isEmpty).filterMap Directive.read?
  read.foldl (fun ds d => d.insert ds) []

/-- The filter that shows errors only. -/
def standard : LogFilter := ⟨[⟨none, .error⟩], none⟩

/-- The filter with the given directives, or the standard one if there are none. -/
def ofDirectives (ds : List Directive) (phrase : Option (List Char)) : LogFilter :=
  ⟨if ds.isEmpty then standard.directives else ds, phrase⟩

/-- The filter with a given written form. One with two slashes says nothing. -/
def ofText (text : String) : LogFilter :=
  match Text.parts '/' text.toList with
  | [directives] => ofDirectives (directivesOf directives) none
  | [directives, phrase] => ofDirectives (directivesOf directives) (some phrase)
  | _ => standard

/-- The filter of a run: what the environment says, or else the one for a debugging run or not. -/
def ofEnvironment (env : String → Option String) (debug : Bool) : LogFilter :=
  ofText ((env variableName).getD (if debug then "debug" else "info"))

/-- Down to which level the records of a topic are shown. -/
def verbosity (f : LogFilter) (topic : String) : Verbosity :=
  match Directive.decisive topic f.directives with
  | some d => d.verbosity
  | none => .off

/-- Whether a record is shown. -/
def shows (f : LogFilter) (r : Record) : Bool :=
  (f.verbosity r.topic).admits r.level && f.phrase.all fun phrase => occurs phrase r.text.toList

/-- A record that is shown is admitted by the directive with the longest name of those that hold for
its topic. -/
theorem of_shows {f : LogFilter} {r : Record} (h : f.shows r = true) :
    ∃ d ∈ f.directives, d.holds r.topic = true ∧ d.verbosity.admits r.level = true
      ∧ ∀ e ∈ f.directives, e.holds r.topic = true → e.size ≤ d.size := by
  rw [shows, Bool.and_eq_true] at h
  obtain ⟨admitted, -⟩ := h
  unfold verbosity at admitted
  split at admitted
  · next d hdecisive =>
    obtain ⟨member, holds, longest⟩ := Directive.of_decisive hdecisive
    exact ⟨d, member, holds, admitted, longest⟩
  · rw [Verbosity.off_admits] at admitted
    cases admitted

theorem shows_of_no_phrase {f : LogFilter} (h : f.phrase = none) (r : Record) :
    f.shows r = (f.verbosity r.topic).admits r.level := by
  simp [shows, h]

theorem shows_off (phrase : Option (List Char)) (r : Record) :
    LogFilter.shows ⟨[⟨none, .off⟩], phrase⟩ r = false := by
  simp [shows, verbosity, Directive.decisive, Directive.holds, Verbosity.off_admits]

end LogFilter

end KeyBroker
