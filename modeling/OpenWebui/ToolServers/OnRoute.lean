import OpenWebui.ToolServers.Request

/-! A tool call stays on its route, unless a segment becomes a dot segment. -/

namespace OpenWebui.ToolServers

open Substitution

theorem hole_filled (name : String) : hole name ≠ [] := List.cons_ne_nil _ _

theorem hole_injective {first second : String} (same : hole first = hole second) : first = second :=
  String.toList_inj.mp (List.append_cancel_right (List.cons.inj same).2)

theorem occurrences_free {pattern free text : List Char} (absent : '{' ∉ free) :
    occurrences ('{' :: pattern) (free ++ text) = occurrences ('{' :: pattern) text := by
  induction free with
  | nil => rfl
  | cons char rest ih =>
    have different : ¬ '{' :: pattern <+: char :: (rest ++ text) := by
      intro front
      rw [List.cons_prefix_cons] at front
      exact absent (front.1 ▸ List.mem_cons_self)
    rw [List.cons_append, occurrences, if_neg different, Nat.zero_add]
    exact ih (fun member => absent (List.mem_cons_of_mem _ member))

theorem hole_prefix_iff (first second : Placeholder) (text : List Char) :
    hole first.name <+: hole second.name ++ text ↔ first.name = second.name := by
  constructor
  · intro front
    rw [hole, hole, List.cons_append, List.cons_prefix_cons, List.append_assoc] at front
    have closing : ∀ (left right : List Char), '}' ∉ left → '}' ∉ right →
        left ++ ['}'] <+: right ++ '}' :: text → left = right := by
      intro left
      induction left with
      | nil =>
        intro right _ other front
        cases right with
        | nil => rfl
        | cons char rest =>
          have same := (List.cons_prefix_cons.mp front).1
          exact absurd (same ▸ List.mem_cons_self) other
      | cons char rest ih =>
        intro right own other front
        cases right with
        | nil =>
          have same := (List.cons_prefix_cons.mp front).1
          exact absurd (same ▸ List.mem_cons_self) own
        | cons next later =>
          obtain ⟨same, behind⟩ := List.cons_prefix_cons.mp front
          rw [same, ih later (fun member => own (List.mem_cons_of_mem _ member))
            (fun member => other (List.mem_cons_of_mem _ member)) behind]
    exact String.toList_inj.mp (closing _ _ first.plain.2 second.plain.2 front.2)
  · intro same
    rw [same]
    exact List.prefix_append _ _

theorem occurrences_hole (first second : Placeholder) (text : List Char) :
    occurrences (hole first.name) (hole second.name ++ text) =
      (if hole second.name = hole first.name then 1 else 0) + occurrences (hole first.name) text := by
  have inside : '{' ∉ second.name.toList ++ ['}'] := by
    simp [second.plain.1]
  have behind : occurrences (hole first.name) (second.name.toList ++ ['}'] ++ text) =
      occurrences (hole first.name) text := occurrences_free inside
  have opened : hole second.name ++ text = '{' :: (second.name.toList ++ ['}'] ++ text) := rfl
  have front := hole_prefix_iff first second text
  rw [opened] at front ⊢
  rw [occurrences, behind]
  congr 1
  by_cases same : first.name = second.name
  · rw [if_pos (front.mpr same), same, if_pos rfl]
  · rw [if_neg (fun there => same (front.mp there)), if_neg (fun there => same (hole_injective there).symm)]

/-- A text with no opening brace outside its holes. -/
def Formed (read : Tokens Char) : Prop :=
  ∀ token ∈ read, (∃ char, token = .inl char ∧ char ≠ '{') ∨
    ∃ placeholder : Placeholder, token = .inr (hole placeholder.name)

/-- Each placeholder stands as it is or has a value without an opening brace. -/
def Settled (value : List Char → List Char) : Prop :=
  ∀ placeholder : Placeholder, value (hole placeholder.name) = hole placeholder.name ∨
    '{' ∉ value (hole placeholder.name)

theorem occurrences_fill {read : Tokens Char} {value : List Char → List Char} (formed : Formed read)
    (settled : Settled value) {param : Placeholder}
    (kept : value (hole param.name) = hole param.name) :
    occurrences (hole param.name) (fill value read) = own (hole param.name) read := by
  induction read with
  | nil => rfl
  | cons token rest ih =>
    have later := ih (fun other listed => formed other (List.mem_cons_of_mem _ listed))
    rcases formed token List.mem_cons_self with ⟨char, rfl, plain⟩ | ⟨placeholder, rfl⟩
    · have passed := @occurrences_free (param.name.toList ++ ['}']) [char] (fill value rest)
        (by simpa using plain.symm)
      rw [fill_item, own, ← later]
      exact passed
    · rw [fill_hole, own, ← later]
      rcases settled placeholder with same | free
      · rw [same]
        exact occurrences_hole param placeholder _
      · have other : hole placeholder.name ≠ hole param.name := by
          intro same
          rw [same, kept] at free
          exact free List.mem_cons_self
        rw [if_neg other, Nat.zero_add]
        exact occurrences_free free

def values (formatting : Formatting) (entries : List (String × Json)) : List Char → List Char :=
  entries.foldl (fun value entry =>
    Function.update value (hole entry.1) (Url.quote (formatting.text entry.2))) id

theorem open_not_quoted (text : String) : '{' ∉ Url.quote text := by
  intro member
  exact Url.quote_plain member (by decide)

section Filled

variable {formatting : Formatting}

theorem values_concat (entries : List (String × Json)) (entry : String × Json) :
    values formatting (entries ++ [entry]) =
      Function.update (values formatting entries) (hole entry.1)
        (Url.quote (formatting.text entry.2)) := by
  rw [values, List.foldl_concat, ← values]

theorem values_other {entries : List (String × Json)} {name : String}
    (absent : name ∉ Assoc.keys entries) : values formatting entries (hole name) = hole name := by
  induction entries using List.reverseRecOn with
  | nil => rfl
  | append_singleton before entry ih =>
    rw [Assoc.keys_append, List.mem_append, not_or] at absent
    have different : hole name ≠ hole entry.1 := by
      intro same
      exact absent.2 (by simp [hole_injective same])
    rw [values_concat, Function.update_of_ne different]
    exact ih absent.1

theorem values_hole {entries : List (String × Json)} (unique : (Assoc.keys entries).Nodup)
    (name : String) : values formatting entries (hole name) =
      ((entries.lookup name).map (fun value => Url.quote (formatting.text value))).getD
        (hole name) := by
  induction entries using List.reverseRecOn with
  | nil => rfl
  | append_singleton before entry ih =>
    rw [Assoc.keys_append, List.nodup_append] at unique
    rw [values_concat, Assoc.lookup_append, Assoc.lookup_cons_self_or]
    by_cases same : entry.1 = name
    · have absent : name ∉ Assoc.keys before := by
        intro earlier
        exact unique.2.2 name earlier entry.1 (by simp) same.symm
      rw [same, Function.update_self, Assoc.lookup_eq_none.mpr absent, if_pos rfl]
      rfl
    · have different : hole name ≠ hole entry.1 := fun equal => same (hole_injective equal).symm
      rw [Function.update_of_ne different, if_neg same, ih unique.1, List.lookup_nil, Option.or_none]

theorem settled_values (entries : List (String × Json)) : Settled (values formatting entries) := by
  induction entries using List.reverseRecOn with
  | nil => exact fun _ => .inl rfl
  | append_singleton before entry ih =>
    intro placeholder
    rw [values_concat]
    by_cases same : hole placeholder.name = hole entry.1
    · rw [same, Function.update_self]
      exact .inr (open_not_quoted _)
    · rw [Function.update_of_ne same]
      exact ih placeholder

theorem fill_route_eq {read : Tokens Char} (formed : Formed read) {entries : List (String × Json)}
    (unique : (Assoc.keys entries).Nodup)
    (plain : ∀ entry ∈ entries, '{' ∉ entry.1.toList ∧ '}' ∉ entry.1.toList) :
    entries.foldl (fun text entry =>
      replace (hole entry.1) (Url.quote (formatting.text entry.2)) text) (fill id read) =
        fill (values formatting entries) read := by
  induction entries using List.reverseRecOn with
  | nil => rfl
  | append_singleton before entry ih =>
    rw [Assoc.keys_append, List.nodup_append] at unique
    have absent : entry.1 ∉ Assoc.keys before := by
      intro earlier
      exact unique.2.2 entry.1 earlier entry.1 (by simp) rfl
    rw [List.foldl_concat, values_concat,
      ih unique.1 (fun other listed => plain other (List.mem_append_left _ listed))]
    have kept : values formatting before (hole entry.1) = hole entry.1 := values_other absent
    have count := @occurrences_fill read (values formatting before) formed (settled_values before)
      ⟨entry.1, plain entry (by simp)⟩ kept
    exact replace_fill (hole_filled entry.1) kept count _

end Filled

section Parameters

variable {item : PathItem} {operation : Operation} {params : Dict String Json}

theorem merged_key {entry : (String × String) × Parameter}
    (listed : entry ∈ (merged_params item operation).entries) :
    entry.1 = (entry.2.name, entry.2.location) := by
  unfold merged_params at listed
  generalize item.parameters ++ operation.parameters = parameters at listed
  induction parameters using List.reverseRecOn with
  | nil => cases listed
  | append_singleton before param ih =>
    rw [List.foldl_concat] at listed
    split at listed
    · exact ih listed
    · have found := Dict.mem_entries_iff.mp listed
      rw [Dict.get?_set] at found
      split at found
      · rename_i same
        rw [← same, Option.some.inj found]
      · exact ih (Dict.mem_entries_iff.mpr found)

theorem given_eq_some {keep : Parameter → Json → Bool} {param : Parameter} {entry : String × Json} :
    given keep params param = some entry ↔
      entry.1 = param.name ∧ params.get? param.name = some entry.2 ∧ keep param entry.2 = true := by
  rw [given, Option.bind_eq_some_iff]
  constructor
  · rintro ⟨value, found, kept⟩
    split at kept
    · rename_i keeps
      cases kept
      exact ⟨rfl, found, keeps⟩
    · cases kept
  · rintro ⟨name, found, keeps⟩
    exact ⟨entry.2, found, by rw [if_pos keeps, ← name]⟩

theorem collect_entries {keep : Parameter → Json → Bool} {location : String}
    (located : ∀ param value, keep param value = true → param.location = location)
    (merged : Dict (String × String) Parameter)
    (keyed : ∀ entry ∈ merged.entries, entry.1 = (entry.2.name, entry.2.location)) :
    (collect keep merged params).entries =
      merged.entries.filterMap (fun entry => given keep params entry.2) := by
  have unique := merged.unique
  unfold collect
  generalize merged.entries = entries at unique keyed ⊢
  induction entries using List.reverseRecOn with
  | nil => rfl
  | append_singleton before entry ih =>
    rw [Assoc.keys_append, List.nodup_append] at unique
    have earlier := ih unique.1 (fun other listed => keyed other (List.mem_append_left _ listed))
    rw [List.foldl_concat, List.filterMap_append, ← earlier, collect_param]
    cases found : given keep params entry.2 with
    | none => simp [found]
    | some value =>
      obtain ⟨name, -, keeps⟩ := given_eq_some.mp found
      rw [Dict.entries_set_of_fresh]
      · simp [found]
      · intro there
        unfold Dict.keys Assoc.keys at there
        rw [earlier] at there
        obtain ⟨held, listed, same⟩ := List.mem_map.mp there
        obtain ⟨other, before_it, kept⟩ := List.mem_filterMap.mp listed
        obtain ⟨other_name, -, keeps_other⟩ := given_eq_some.mp kept
        refine unique.2.2 other.1 (List.mem_map_of_mem before_it) entry.1 (by simp) ?_
        rw [keyed other (List.mem_append_left _ before_it), keyed entry (by simp), ← other_name, same,
          name, located _ _ keeps_other, located _ _ keeps]

def supplied (formatting : Formatting) (merged : Dict (String × String) Parameter)
    (params : Dict String Json) : Filling :=
  fun name => (merged.get? (name, "path")).bind (fun _ =>
    (params.get? name).map (fun value => Url.quote (formatting.text value)))

def suppliedQuery (formatting : Formatting) (merged : Dict (String × String) Parameter)
    (params : Dict String Json) : List (String × String) :=
  merged.entries.filterMap (fun entry =>
    if entry.2.location = "query" then
      (params.get? entry.2.name).bind (fun value =>
        if skipped entry.2 value then none else some (entry.2.name, formatting.text value))
    else none)

variable {merged : Dict (String × String) Parameter} {formatting : Formatting}

theorem path_params_lookup
    (keyed : ∀ entry ∈ merged.entries, entry.1 = (entry.2.name, entry.2.location)) (name : String) :
    (path_params merged params).get? name =
      (merged.get? (name, "path")).bind (fun _ => params.get? name) := by
  have entries := @collect_entries params (fun param _ => param.location = "path") "path"
    (fun _ _ located => of_decide_eq_true located) merged keyed
  apply Option.ext
  intro value
  rw [path_params, ← Dict.mem_entries_iff, entries, List.mem_filterMap, Option.bind_eq_some_iff]
  constructor
  · rintro ⟨entry, listed, kept⟩
    obtain ⟨same, found, located⟩ := given_eq_some.mp kept
    have key := keyed entry listed
    rw [← same, of_decide_eq_true located] at key
    have name_same : name = entry.2.name := same
    refine ⟨entry.2, ?_, ?_⟩
    · rw [← key]
      exact Dict.mem_entries_iff.mp listed
    · rw [name_same]
      exact found
  · rintro ⟨param, declared, found⟩
    have listed := Dict.mem_entries_iff.mpr declared
    have key := keyed _ listed
    obtain ⟨same, located⟩ := Prod.mk.inj key
    refine ⟨_, listed, given_eq_some.mpr ⟨same, ?_, decide_eq_true located.symm⟩⟩
    rw [← same]
    exact found

theorem query_params_entries
    (keyed : ∀ entry ∈ merged.entries, entry.1 = (entry.2.name, entry.2.location)) :
    (query_params merged params).entries.map (fun entry => (entry.1, formatting.text entry.2)) =
      suppliedQuery formatting merged params := by
  have entries := @collect_entries params
    (fun param value => param.location = "query" && !skipped param value) "query"
    (fun _ _ kept => of_decide_eq_true (Bool.and_eq_true_iff.mp kept).1) merged keyed
  rw [query_params, entries, List.map_filterMap, suppliedQuery]
  congr 1
  funext entry
  rw [given]
  cases params.get? entry.2.name with
  | none => simp
  | some value =>
    by_cases located : entry.2.location = "query"
    · by_cases skip : skipped entry.2 value = true
      · simp [located, skip]
      · simp [located, skip]
    · simp [located]

theorem path_params_plain
    (keyed : ∀ entry ∈ merged.entries, entry.1 = (entry.2.name, entry.2.location)) {entry : String × Json} (listed : entry ∈ (path_params merged params).entries) :
    '{' ∉ entry.1.toList ∧ '}' ∉ entry.1.toList := by
  have entries := @collect_entries params (fun param _ => param.location = "path") "path"
    (fun _ _ located => of_decide_eq_true located) merged keyed
  rw [path_params, entries] at listed
  obtain ⟨declared, -, kept⟩ := List.mem_filterMap.mp listed
  obtain ⟨same, -, located⟩ := given_eq_some.mp kept
  rw [same]
  exact declared.2.plain (of_decide_eq_true located)

end Parameters

section Requested

variable {formatting : Formatting} {route : Route} {url : ServerUrl} {filling : Filling}

def Route.tokens (route : Route) : Tokens Char :=
  route.segments.flatMap (fun segment => .inl '/' :: segment.flatMap Piece.tokens)

theorem fill_append (value : List Char → List Char) (first second : Tokens Char) :
    fill value (first ++ second) = fill value first ++ fill value second := List.flatMap_append

theorem fill_items (value : List Char → List Char) (text : List Char) :
    fill value (text.map .inl) = text := by
  induction text with
  | nil => rfl
  | cons char rest ih => rw [List.map_cons, fill_item, ih]

theorem fill_piece {value : List Char → List Char}
    (values : ∀ name, value (hole name) = (filling name).getD (hole name)) (piece : Piece) :
    fill value piece.tokens = piece.filled filling := by
  cases piece with
  | literal part => exact fill_items value part.text
  | placeholder part =>
    rw [Piece.tokens, Piece.filled, fill_hole, fill_nil, List.append_nil]
    exact values part.name

theorem fill_segment {value : List Char → List Char}
    (values : ∀ name, value (hole name) = (filling name).getD (hole name)) (segment : List Piece) :
    fill value (segment.flatMap Piece.tokens) = segment.flatMap (Piece.filled filling) := by
  induction segment with
  | nil => rfl
  | cons piece rest ih => rw [List.flatMap_cons, fill_append, fill_piece values, ih, List.flatMap_cons]

theorem fill_tokens_route {value : List Char → List Char}
    (values : ∀ name, value (hole name) = (filling name).getD (hole name)) (route : Route) :
    fill value route.tokens = Url.joined (route.filled filling) := by
  rw [Route.tokens, Route.filled]
  induction route.segments with
  | nil => rfl
  | cons segment rest ih =>
    rw [List.flatMap_cons, fill_append, fill_item, fill_segment values, ih]
    rfl

theorem filled_none (route : Route) : Url.joined (route.filled (fun _ => none)) = route.text := by
  have same : Piece.filled (fun _ => none) = Piece.text := by
    funext piece
    cases piece <;> rfl
  rw [Route.filled, same, Route.text]

theorem formed_route (route : Route) : Formed route.tokens := by
  intro token listed
  obtain ⟨segment, -, inside⟩ := List.mem_flatMap.mp listed
  rcases List.mem_cons.mp inside with rfl | member
  · exact .inl ⟨'/', rfl, by decide⟩
  · obtain ⟨piece, -, of_piece⟩ := List.mem_flatMap.mp member
    cases piece with
    | literal part =>
      obtain ⟨char, in_part, rfl⟩ := List.mem_map.mp of_piece
      refine .inl ⟨char, rfl, ?_⟩
      rintro rfl
      exact part.plain '{' in_part (by decide)
    | placeholder part => exact .inr ⟨part, List.mem_singleton.mp of_piece⟩

def ServerUrl.front (url : ServerUrl) : List Char :=
  url.scheme ++ ':' :: '/' :: '/' :: (url.authority ++ Url.joined url.base)

theorem front_open (url : ServerUrl) : '{' ∉ url.front := by
  intro member
  simp only [ServerUrl.front, List.mem_append, List.mem_cons] at member
  rcases member with in_scheme | slash | slash | slash | in_authority | in_base
  · exact url.scheme_plain '{' in_scheme (by decide)
  · exact absurd slash (by decide)
  · exact absurd slash (by decide)
  · exact absurd slash (by decide)
  · exact url.authority_plain '{' in_authority (by decide)
  · obtain ⟨part, listed, inside⟩ := List.mem_flatMap.mp in_base
    rcases List.mem_cons.mp inside with slash | in_part
    · exact absurd slash (by decide)
    · exact url.base_plain part listed '{' in_part (by decide)

theorem front_last (url : ServerUrl) : ∃ before last, url.front = before ++ [last] ∧ last ≠ '/' := by
  rcases List.eq_nil_or_concat' url.base with none | ⟨parts, part, some_base⟩
  · obtain ⟨before, last, whole⟩ := (List.eq_nil_or_concat' url.authority).resolve_left
      url.some_authority
    refine ⟨url.scheme ++ ':' :: '/' :: '/' :: before, last, ?_, ?_⟩
    · simp [ServerUrl.front, none, whole, Url.joined]
    · rintro rfl
      exact url.authority_plain '/' (by simp [whole]) (by decide)
  · have filled : part ≠ [] := url.base_end part (by simp [some_base])
    obtain ⟨before, last, whole⟩ := (List.eq_nil_or_concat' part).resolve_left filled
    refine ⟨url.scheme ++ ':' :: '/' :: '/' :: (url.authority ++ (Url.joined parts ++ '/' :: before)),
      last, ?_, ?_⟩
    · simp [ServerUrl.front, some_base, whole, Url.joined]
    · rintro rfl
      exact url.base_plain part (by simp [some_base]) '/' (by simp [whole]) (by decide)

theorem rstrip_text (url : ServerUrl) : rstrip url.text = url.front := by
  obtain ⟨before, last, whole, plain⟩ := front_last url
  have slashes : ∀ char ∈ List.replicate url.slashes '/', decide (char = '/') = true :=
    fun char member => decide_eq_true (List.eq_of_mem_replicate member)
  rw [rstrip, ServerUrl.text, ← ServerUrl.front, whole, List.reverse_append, List.reverse_replicate,
    List.dropWhile_append_of_pos slashes, List.reverse_concat, List.dropWhile_cons_of_neg]
  · simp
  · simpa using plain

variable (formatting) in
theorem final_url_eq (url : ServerUrl) (item : PathItem) (operation : Operation)
    (params : Dict String Json) :
    final_url formatting url item.route (path_params (merged_params item operation) params)
        (query_params (merged_params item operation) params) =
      url.front ++ Url.joined (item.route.filled
          (supplied formatting (merged_params item operation) params)) ++
        (if suppliedQuery formatting (merged_params item operation) params = [] then []
          else '?' :: Url.urlencode
            (suppliedQuery formatting (merged_params item operation) params)) := by
  have keyed := fun entry => @merged_key item operation entry
  have text : fill id item.route.tokens = item.route.text :=
    (@fill_tokens_route (fun _ => none) id (fun _ => rfl) item.route).trans (filled_none item.route)
  have read : fill id (url.front.map .inl ++ item.route.tokens) = url.front ++ item.route.text := by
    rw [fill_append, fill_items, text]
  have formed : Formed (url.front.map .inl ++ item.route.tokens) := by
    intro token listed
    rcases List.mem_append.mp listed with in_front | in_route
    · obtain ⟨char, member, rfl⟩ := List.mem_map.mp in_front
      refine .inl ⟨char, rfl, ?_⟩
      rintro rfl
      exact front_open url member
    · exact formed_route item.route token in_route
  have filled : fill_route formatting (path_params (merged_params item operation) params)
      (rstrip url.text ++ item.route.text) = url.front ++ Url.joined (item.route.filled
        (supplied formatting (merged_params item operation) params)) := by
    rw [fill_route, rstrip_text, ← read,
      fill_route_eq formed (Dict.keys_nodup _) (fun entry => path_params_plain keyed), fill_append,
      fill_items]
    congr 1
    refine fill_tokens_route (fun name => ?_) item.route
    rw [values_hole (Dict.keys_nodup _)]
    have found := @path_params_lookup params _ keyed name
    rw [Dict.get?] at found
    rw [found, supplied]
    cases (merged_params item operation).get? (name, "path") <;> rfl
  have asked := @query_params_entries params _ formatting keyed
  rw [final_url, filled]
  simp only [asked]
  by_cases none : suppliedQuery formatting (merged_params item operation) params = []
  · have empty : (query_params (merged_params item operation) params).entries = [] := by
      rw [none, List.map_eq_nil_iff] at asked
      exact asked
    rw [if_pos empty, if_pos none, List.append_nil]
  · have some_entry : (query_params (merged_params item operation) params).entries ≠ [] := by
      intro empty
      rw [empty] at asked
      exact none asked.symm
    rw [if_neg some_entry, if_neg none]

/-- A request that stays on its route: what is left of its path is what the URL of the server has,
and the segments of the route with the chosen values; its query has the chosen parameters. -/
structure OnRoute (formatting : Formatting) (url : ServerUrl) (item : PathItem) (operation : Operation)
    (params : Dict String Json) (final : List Char) : Prop where
  path : Url.removeDots (Url.segments (Url.path final)) = url.base.foldl Url.passSegment [] ++
    item.route.filled (supplied formatting (merged_params item operation) params)
  query : Url.parseQuery (Url.query final) =
    (suppliedQuery formatting (merged_params item operation) params).map (fun pair =>
      (Url.utf8 pair.1, Url.utf8 pair.2))

/-- No filled segment is a dot segment, and the names of placeholders that are left do not part the
URL. -/
structure KeepsSegments (route : Route) (filling : Filling) : Prop where
  dots : ∀ segment ∈ route.filled filling, Url.isDots segment = false
  left : ∀ segment ∈ route.segments, ∀ part, Piece.placeholder part ∈ segment →
    filling part.name = none → ∀ char ∈ part.name.toList, char ≠ '/' ∧ char ≠ '?' ∧ char ≠ '#'

theorem filled_plain_iff (formatting : Formatting) (merged : Dict (String × String) Parameter)
    (params : Dict String Json) (route : Route) :
    (∀ segment ∈ route.filled (supplied formatting merged params), ∀ char ∈ segment,
        char ≠ '/' ∧ char ≠ '?' ∧ char ≠ '#') ↔
      ∀ segment ∈ route.segments, ∀ part, Piece.placeholder part ∈ segment →
        supplied formatting merged params part.name = none → ∀ char ∈ part.name.toList,
          char ≠ '/' ∧ char ≠ '?' ∧ char ≠ '#' := by
  have outside : ∀ {char : Char} {stops : List Char}, char ∉ stops → ['/', '?', '#'] ⊆ stops →
      char ≠ '/' ∧ char ≠ '?' ∧ char ≠ '#' := by
    intro char stops plain inside
    refine ⟨?_, ?_, ?_⟩
    · rintro rfl
      exact plain (inside (by decide))
    · rintro rfl
      exact plain (inside (by decide))
    · rintro rfl
      exact plain (inside (by decide))
  constructor
  · intro plain segment listed part in_segment unfilled char member
    refine plain _ (List.mem_map_of_mem listed) char ?_
    refine List.mem_flatMap.mpr ⟨_, in_segment, ?_⟩
    rw [Piece.filled, unfilled]
    exact List.mem_cons_of_mem _ (List.mem_append_left _ member)
  · intro left segment listed char member
    obtain ⟨pieces, of_route, rfl⟩ := List.mem_map.mp listed
    obtain ⟨piece, in_pieces, inside⟩ := List.mem_flatMap.mp member
    cases piece with
    | literal part => exact outside (part.plain char inside) (by decide)
    | placeholder part =>
      rw [Piece.filled] at inside
      cases value : supplied formatting merged params part.name with
      | none =>
        rw [value] at inside
        rcases List.mem_cons.mp inside with rfl | behind
        · decide
        · rcases List.mem_append.mp behind with of_name | closing
          · exact left pieces of_route part in_pieces value char of_name
          · rw [List.mem_singleton.mp closing]
            decide
      | some text =>
        rw [value] at inside
        obtain ⟨_, -, chosen⟩ := Option.bind_eq_some_iff.mp value
        obtain ⟨given, -, rfl⟩ := Option.map_eq_some_iff.mp chosen
        exact outside (Url.quote_plain inside) (by decide)

theorem requested_parts (url : ServerUrl) {parts : List (List Char)} (some_part : parts ≠ [])
    (plain : ∀ part ∈ url.base ++ parts, ∀ char ∈ part, char ≠ '/' ∧ char ≠ '?' ∧ char ≠ '#')
    (pairs : List (String × String)) :
    Url.path (url.front ++ Url.joined parts ++ (if pairs = [] then [] else '?' :: Url.urlencode pairs)) =
        Url.joined (url.base ++ parts) ∧
      Url.query (url.front ++ Url.joined parts ++
        (if pairs = [] then [] else '?' :: Url.urlencode pairs)) = Url.urlencode pairs := by
  have whole : url.front ++ Url.joined parts =
      url.scheme ++ ':' :: '/' :: '/' :: (url.authority ++ Url.joined (url.base ++ parts)) := by
    simp [ServerUrl.front, Url.joined]
  have outside : ∀ {char : Char}, char ∉ delimiters → char ≠ '/' ∧ char ≠ '?' ∧ char ≠ '#' := by
    intro char absent
    simp only [delimiters, List.mem_cons, not_or] at absent
    exact ⟨absent.1, absent.2.1, absent.2.2.1⟩
  rw [whole]
  apply Url.parts_of_url
  · intro char member
    have absent := url.scheme_plain char member
    rw [List.mem_cons, not_or] at absent
    exact ⟨absent.1, (outside absent.2).2⟩
  · exact fun char member => outside (url.authority_plain char member)
  · intro char member
    obtain ⟨part, listed, inside⟩ := List.mem_flatMap.mp member
    rcases List.mem_cons.mp inside with rfl | in_part
    · decide
    · exact (plain part listed char in_part).2
  · obtain ⟨part, rest, split⟩ := List.exists_cons_of_ne_nil
      (List.append_ne_nil_of_right_ne_nil url.base some_part)
    rw [split]
    rfl
  · by_cases none : pairs = []
    · left
      rw [if_pos none, none]
      exact ⟨rfl, rfl⟩
    · right
      rw [if_neg none]
  · exact fun char member => (Url.mem_urlencode member).1

theorem onRoute_iff (formatting : Formatting) (url : ServerUrl) (item : PathItem)
    (operation : Operation) (params : Dict String Json) :
    OnRoute formatting url item operation params
        (final_url formatting url item.route (path_params (merged_params item operation) params)
          (query_params (merged_params item operation) params)) ↔
      KeepsSegments item.route (supplied formatting (merged_params item operation) params) := by
  have some_part : item.route.filled (supplied formatting (merged_params item operation) params) ≠ [] := by
    intro none
    exact item.route.rooted (List.map_eq_nil_iff.mp none)
  have chars := filled_plain_iff formatting (merged_params item operation) params item.route
  constructor
  · rintro ⟨path, -⟩
    have of_path : ∀ segment ∈ item.route.filled
        (supplied formatting (merged_params item operation) params), _ := fun segment listed =>
      Url.mem_removeDots (path ▸ List.mem_append_right _ listed)
    refine ⟨fun segment listed => (of_path segment listed).1, chars.mp ?_⟩
    intro segment listed char inside
    rcases (of_path segment listed).2 with rfl | in_path
    · cases inside
    · exact Url.segment_plain in_path inside
  · rintro ⟨dots, left⟩
    have plain := chars.mpr left
    have parts_plain : ∀ part ∈ url.base ++ item.route.filled
        (supplied formatting (merged_params item operation) params), ∀ char ∈ part,
        char ≠ '/' ∧ char ≠ '?' ∧ char ≠ '#' := by
      intro part listed char inside
      rcases List.mem_append.mp listed with in_base | in_route
      · have outside := url.base_plain part in_base char inside
        simp only [delimiters, List.mem_cons, not_or] at outside
        exact ⟨outside.1, outside.2.1, outside.2.2.1⟩
      · exact plain part in_route char inside
    obtain ⟨path, query⟩ := requested_parts url some_part parts_plain
      (suppliedQuery formatting (merged_params item operation) params)
    rw [final_url_eq]
    constructor
    · rw [path, Url.segments_joined (fun part listed inside => (parts_plain part listed '/' inside).1 rfl)]
      exact (Url.removeDots_append_iff some_part).mpr dots
    · rw [query, Url.parseQuery_urlencode]

/-- When the URL that is requested for a tool call stays on the route of its operation. -/
theorem tool_call_on_route_iff (formatting : Formatting) (url : ServerUrl) {paths : List PathItem}
    {name : String} {item : PathItem} {entry : String × Operation}
    (routed : matching_route paths name = some item) (found : method_entry item name = some entry)
    (params : Dict String Json) :
    (∃ method final, execute_tool_server formatting url paths name params = some (method, final) ∧
        OnRoute formatting url item entry.2 params final) ↔
      KeepsSegments item.route (supplied formatting (merged_params item entry.2) params) := by
  rw [← onRoute_iff, execute_tool_server, routed]
  simp only [Option.bind_eq_bind, Option.bind_some, found]
  constructor
  · rintro ⟨method, final, same, on_route⟩
    cases same
    exact on_route
  · intro on_route
    exact ⟨_, _, rfl, on_route⟩

end Requested

def plainFormatting : Formatting := ⟨fun _ => "", fun _ => ""⟩

def localServer : ServerUrl where
  scheme := "http".toList
  authority := "tools".toList
  base := []
  slashes := 1
  scheme_plain := by simp [delimiters]
  authority_plain := by simp [delimiters]
  some_authority := by decide
  base_plain := by simp
  base_end := by simp

/-- `/users/{id}`. -/
def userRoute : Route where
  segments := [[.literal ⟨"users".toList, by simp [delimiters]⟩], [.placeholder ⟨"id", by decide⟩]]
  rooted := by simp

def getUser : Operation := ⟨some "get_user", [⟨"id", "path", true, fun _ => by decide⟩]⟩

def chosen (id : String) : Dict String Json := .ofEntries [("id", .str id)]

def userItem : PathItem := ⟨userRoute, [], [("get", getUser)]⟩

theorem slashes_kept : ∃ method final,
    execute_tool_server plainFormatting localServer [userItem] "get_user" (chosen "../a?{id}#") =
        some (method, final) ∧
      OnRoute plainFormatting localServer userItem getUser (chosen "../a?{id}#") final := by
  have found : method_entry userItem "get_user" = some ("get", getUser) := rfl
  refine (tool_call_on_route_iff plainFormatting localServer rfl found _).mpr ⟨?_, ?_⟩
  · decide +kernel
  · intro segment listed part inside unfilled
    have value : (supplied plainFormatting (merged_params userItem getUser) (chosen "../a?{id}#")
        "id").isSome = true := by decide +kernel
    simp only [userItem, userRoute, List.mem_cons, List.not_mem_nil, or_false] at listed
    rcases listed with rfl | rfl
    · simp at inside
    · rw [List.mem_singleton, Piece.placeholder.injEq] at inside
      rw [inside] at unfilled
      rw [unfilled] at value
      cases value

/-- A value of dots leaves the route. -/
theorem dots_leave : ¬ ∀ params : Dict String Json, ∃ method final,
    execute_tool_server plainFormatting localServer [userItem] "get_user" params =
        some (method, final) ∧
      OnRoute plainFormatting localServer userItem getUser params final := by
  intro stays
  obtain ⟨method, final, requested, on_route⟩ := stays (chosen "..")
  cases requested
  have keeps := (onRoute_iff plainFormatting localServer userItem getUser (chosen "..")).mp on_route
  have plain := keeps.dots ['.', '.'] (by decide +kernel)
  exact absurd plain (by decide)

end OpenWebui.ToolServers
