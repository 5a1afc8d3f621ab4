import Portex.Mcp.Servers

/-!
# The normalisers of MCP servers

An upsert is given its texts as its caller has them, with blanks around them. This module says what
is meant by the arguments, without the code's normalisers, and that these answer it: a transport in
any case, texts without their blanks and none of them blank, and maps in which the last of several
names that are the same without their blanks counts.

## Main definitions

* `stripped`, `strippedAll`, `strippedNames`: texts, lists and maps without blanks
* `Reach`: how a server is reached
* `reachOf`: how it is reached by the arguments of an upsert

## Main results

* `normalizeStringList_eq`, `normalizeStringDict_eq`: the answers of the normalisers
* `normalizeTransportPayload_reach`: the payload is what is meant by the arguments
-/

namespace Portex

open Foundation

/-! ## What is meant -/

/-- A text without the blanks around it, unless it is blank. -/
def stripped (text : Str) : Option Str := if strip text = [] then none else some (strip text)

/-- Texts without the blanks around them, unless one of them is blank. -/
def strippedAll (texts : List Str) : Option (List Str) :=
  if ∀ text ∈ texts, strip text ≠ [] then some (texts.map strip) else none

/-- The value of the last item whose name is this one, without the blanks around it. -/
def lastNamed (items : List (Str × Str)) (name : Str) : Option Str :=
  (items.reverse.find? fun item => strip item.1 = name).map Prod.snd

/-- A map with the names without the blanks around them, unless one of them is blank. -/
def strippedNames (values : Dict Str Str) : Option (Str → Option Str) :=
  if ∀ item ∈ values.items, strip item.1 ≠ [] then some (lastNamed values.items) else none

/-- A server id without the blanks around it, unless it is refused. -/
def safeSegment (value : Str) : Option Str :=
  if isSafeSegment (strip value) then some (strip value) else none

/-- The transport that has the text as its name, in any case and with blanks around it. -/
def transportOf (text : Str) : Option McpTransport :=
  [McpTransport.stdio, .http, .sse].find? fun transport =>
    transport.text = (strip text).map Char.toLower

/-- How a server is reached, with the environment and the headers as maps. -/
inductive Reach
  | stdio (command : Str) (args : List Str) (env : Str → Option Str)
  | remote (transport : McpTransport) (url : Str) (headers : Str → Option Str)

def Reach.transport : Reach → McpTransport
  | .stdio _ _ _ => .stdio
  | .remote transport _ _ => transport

def TransportPayload.reach : TransportPayload → Reach
  | .stdio command args env => .stdio command args env.get?
  | .remote transport url headers => .remote transport url headers.get?

/-- How a server is reached by the arguments of an upsert, unless they are refused. -/
def reachOf (arguments : TransportArguments) : Option Reach :=
  match transportOf arguments.transport with
  | none => none
  | some .stdio => do
    let command ← arguments.command.bind stripped
    let args ← strippedAll (arguments.args.getD [])
    let env ← strippedNames (arguments.env.getD ∅)
    some (.stdio command args env)
  | some transport => do
    let url ← arguments.url.bind stripped
    let headers ← strippedNames (arguments.headers.getD ∅)
    some (.remote transport url headers)

/-! ## What the normalisers answer -/

theorem validateSegment_eq (value : Str) (label : String) :
    validateSegment value label =
      (safeSegment value).elim (.error (.value ("invalid " ++ label))) .ok := by
  unfold validateSegment safeSegment
  split <;> rfl

theorem normalizeOptionalString_eq (value : Option Str) :
    normalizeOptionalString value = value.bind stripped := by
  cases value <;> rfl

theorem parse_eq (text : Str) : McpTransport.parse text = transportOf text := by
  unfold McpTransport.parse transportOf
  generalize (strip text).map Char.toLower = normalized
  have hfind {transport : McpTransport} {rest : List McpTransport} :
      ((transport :: rest).find? fun transport => transport.text = normalized) =
        if normalized = transport.text then some transport
        else rest.find? fun transport => transport.text = normalized := by
    by_cases h : transport.text = normalized
    · simp [h]
    · simp [h, Ne.symm h]
  rw [hfind, hfind, hfind]
  rfl

theorem strippedAll_cons (text : Str) (texts : List Str) :
    strippedAll (text :: texts) = (stripped text).bind fun head =>
      (strippedAll texts).map fun tail => head :: tail := by
  by_cases htext : strip text = []
  · simp [strippedAll, stripped, htext]
  · simp [strippedAll, stripped, htext]

/-- **A list of texts** is normalised to the texts without blanks, or refused as a whole. -/
theorem normalizeStringList_eq (texts : Option (List Str)) (label : String) :
    normalizeStringList ((texts.map jsonStrings).getD .null) label =
      (strippedAll (texts.getD [])).elim
        (.error (.value (label ++ " must be an array of strings"))) .ok := by
  cases texts with
  | none => rfl
  | some texts =>
    show normalizeStrings label (texts.map .str) = (strippedAll texts).elim _ .ok
    induction texts with
    | nil => rfl
    | cons text texts ih =>
      rw [List.map_cons, normalizeStrings, ih, strippedAll_cons]
      unfold stripped
      split
      · rfl
      · cases strippedAll texts <;> rfl

/-- Pairs of texts are inserted one after the other, without the blanks around their names. -/
theorem normalizePairs_strings (items : List (Str × Str)) (normalized : Dict Str Str)
    (label : String) :
    normalizePairs label (items.map fun item => (item.1, .str item.2)) normalized =
      if ∀ item ∈ items, strip item.1 ≠ [] then
        .ok (normalized.insertAll (items.map fun item => (strip item.1, item.2)))
      else .error (.value (label ++ " must be an object with string values")) := by
  induction items generalizing normalized with
  | nil => rfl
  | cons item items ih =>
    rw [List.map_cons, normalizePairs]
    by_cases hitem : strip item.1 = []
    · simp [hitem]
    · have hcons : (∀ other ∈ item :: items, strip other.1 ≠ []) ↔
          ∀ other ∈ items, strip other.1 ≠ [] :=
        List.forall_mem_cons.trans (and_iff_right hitem)
      rw [if_neg hitem, ih, if_congr hcons rfl rfl]
      rfl

/-- **A map of texts** is normalised to the map without blanks in its names, or refused. -/
theorem normalizeStringDict_eq (values : Option (Dict Str Str)) (label : String) :
    (normalizeStringDict ((values.map jsonDict).getD .null) label).map Dict.get? =
      (strippedNames (values.getD ∅)).elim
        (.error (.value (label ++ " must be an object with string values"))) .ok := by
  cases values with
  | none => rfl
  | some values =>
    show (normalizePairs label (Dict.ofItems (values.items.map fun item =>
      (item.1, .str item.2))).items ∅).map Dict.get? = (strippedNames values).elim _ .ok
    have hnodup :
        ((values.items.map fun item => (item.1, Json.str item.2)).map Prod.fst).Nodup := by
      rw [List.map_map]
      exact values.map_fst_items.symm ▸ values.nodup
    rw [Dict.items_ofItems hnodup, normalizePairs_strings]
    unfold strippedNames
    split
    · refine congrArg Except.ok (funext fun name => ?_)
      rw [Dict.get?_insertAll_last, ← List.map_reverse, List.find?_map, Option.map_map]
      simp [lastNamed, Function.comp_def]
    · rfl

theorem toOption_elim {α : Type} (error : McpError) (value : Option α) :
    (value.elim (.error error) .ok : Except McpError α).toOption = value := by
  cases value <;> rfl

theorem toOption_map {α β : Type} (f : α → β) (x : Except McpError α) :
    (x.map f).toOption = x.toOption.map f := by
  cases x <;> rfl

theorem toOption_bind {α β : Type} (x : Except McpError α) (f : α → Except McpError β) :
    (x >>= f).toOption = x.toOption.bind fun a => (f a).toOption := by
  cases x <;> rfl

theorem safeSegment_eq (value : Str) (label : String) :
    safeSegment value = (validateSegment value label).toOption := by
  rw [validateSegment_eq, toOption_elim]

/-- A map of texts that goes into a payload. -/
theorem bind_normalizeStringDict (values : Option (Dict Str Str)) (label : String)
    (payload : Dict Str Str → TransportPayload) (reach : (Str → Option Str) → Reach)
    (h : ∀ dict, (payload dict).reach = reach dict.get?) :
    (normalizeStringDict ((values.map jsonDict).getD .null) label >>= fun dict =>
      Except.ok (payload dict)).toOption.map TransportPayload.reach =
        (strippedNames (values.getD ∅)).bind fun names => some (reach names) := by
  have hdict := congrArg Except.toOption (normalizeStringDict_eq values label)
  rw [toOption_map, toOption_elim] at hdict
  rw [toOption_bind, ← hdict]
  cases (normalizeStringDict ((values.map jsonDict).getD .null) label).toOption with
  | none => rfl
  | some dict => exact congrArg some (h dict)

/-- **The payload of an upsert** is what is meant by its arguments. -/
theorem normalizeTransportPayload_reach (arguments : TransportArguments) :
    (normalizeTransportPayload arguments).toOption.map TransportPayload.reach =
      reachOf arguments := by
  unfold normalizeTransportPayload reachOf
  simp only [parse_eq, normalizeOptionalString_eq, normalizeStringList_eq]
  have hheaders (transport : McpTransport) (url : Str) := bind_normalizeStringDict
    arguments.headers "headers" (.remote transport url) (.remote transport url) fun _ => rfl
  cases transportOf arguments.transport with
  | none => rfl
  | some transport =>
    cases transport with
    | http =>
      cases arguments.url.bind stripped with
      | none => rfl
      | some url => exact hheaders .http url
    | sse =>
      cases arguments.url.bind stripped with
      | none => rfl
      | some url => exact hheaders .sse url
    | stdio =>
      cases hcommand : arguments.command.bind stripped with
      | none => rfl
      | some command =>
        simp only [toOption_bind, toOption_elim, Option.map_bind]
        refine Option.bind_congr fun args _ => ?_
        have henv := bind_normalizeStringDict arguments.env "env" (.stdio command args)
          (.stdio command args) fun _ => rfl
        rw [toOption_bind] at henv
        exact henv

end Portex
