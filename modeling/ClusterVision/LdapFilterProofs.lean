import ClusterVision.FilterTextProofs
import ClusterVision.LdapProofs

/-! # The filter that a login searches with

    `ldap_user_search_filter` is a filter with places for the username, and
    `authenticate` fills them with what somebody typed.  Whatever that is, the
    filter that is sent is the configured one with the typed name as a literal
    value in its places: no name widens a search or changes its shape. -/

namespace CvLdap

open CvProg CvKube CvBackend CvAuth CvFilter

/-! ## Templates -/

/-- A part of a value as it is configured. -/
structure Literal where
  text : List Char
  octets : List UInt8
  reads : unescape text = some octets

/-- A part of a value, or the place of the username. -/
inductive Piece where
  | lit (l : Literal)
  | username

/-- A configured filter. -/
abbrev Template := CvFilter.Filter (Item (List Piece))

/-- A character in a format string. -/
def doubled (c : Char) : List Char :=
  if c = '\x7b' ∨ c = '\x7d' then [c, c] else [c]

/-- The field of the username. -/
def usernameField : List Char :=
  ['\x7b', 'u', 's', 'e', 'r', 'n', 'a', 'm', 'e', '\x7d']

/-- The piece in the configuration. -/
def Piece.source : Piece → List Char
  | .lit l => l.text.flatMap doubled
  | .username => usernameField

/-- The piece with the place filled. -/
def Piece.filled (value : List Char) : Piece → List Char
  | .lit l => l.text
  | .username => value

/-- What the piece stands for, for a user. -/
def Piece.octets (name : List UInt8) : Piece → List UInt8
  | .lit l => l.octets
  | .username => name

/-- The setting. -/
def configured (t : Template) : String :=
  String.ofList (write (fun pieces => pieces.flatMap Piece.source) t)

/-- The filter for a user: the configured one, with the name as it is. -/
def named (t : Template) (username : String) :
    CvFilter.Filter (Item (List UInt8)) :=
  t.map (Item.map (fun pieces =>
    pieces.flatMap (Piece.octets (utf8 username.toList))))

/-! ## The library -/

/-- `str.format(username=value)`, as far as templates use it. -/
def formatUsername (value : List Char) : List Char → Option (List Char)
  | [] => some []
  | '\x7b' :: '\x7b' :: rest =>
      (formatUsername value rest).map (fun text => '\x7b' :: text)
  | '\x7d' :: '\x7d' :: rest =>
      (formatUsername value rest).map (fun text => '\x7d' :: text)
  | '\x7b' :: 'u' :: 's' :: 'e' :: 'r' :: 'n' :: 'a' :: 'm' :: 'e' :: '\x7d' ::
      rest => (formatUsername value rest).map (fun text => value ++ text)
  | c :: rest =>
      if c = '\x7b' ∨ c = '\x7d' then none
      else (formatUsername value rest).map (fun text => c :: text)

/-- What is relied on: an escaped name stands for the octets of the name, and
    `str.format` fills its fields. -/
structure FilterLib (lib : AuthLib) : Prop where
  escape : ∀ username, unescape (lib.escapeFilterChars username).toList
    = some (utf8 username.toList)
  format : ∀ template value text,
    formatUsername value.toList template.toList = some text →
      lib.format template value = .ok (String.ofList text)

/-! ## Filling a template -/

/-- In a format string, the source is filled to the text. -/
def Fills (value source text : List Char) : Prop :=
  ∀ rest, formatUsername value (source ++ rest)
    = (formatUsername value rest).map (fun more => text ++ more)

variable {value : List Char}

theorem Fills.nil : Fills value [] [] := fun _ => Option.map_id'.symm

theorem Fills.append {s t s' t' : List Char} (h : Fills value s s')
    (h' : Fills value t t') : Fills value (s ++ t) (s' ++ t') := by
  intro rest
  rw [List.append_assoc, h, h', Option.map_map]
  congr 1
  funext more
  exact (List.append_assoc ..).symm

theorem Fills.flatMap {α : Type} {f g : α → List Char} {xs : List α}
    (h : ∀ x ∈ xs, Fills value (f x) (g x)) :
    Fills value (xs.flatMap f) (xs.flatMap g) := by
  induction xs with
  | nil => exact Fills.nil
  | cons x xs ih =>
      rw [List.flatMap_cons, List.flatMap_cons]
      exact (h x List.mem_cons_self).append
        (ih (fun y hy => h y (List.mem_cons_of_mem _ hy)))

theorem fills_plain {c : Char} (hopen : c ≠ '\x7b') (hclose : c ≠ '\x7d') :
    Fills value [c] [c] := by
  intro rest
  rw [List.singleton_append, formatUsername]
  · rw [if_neg (not_or.mpr ⟨hopen, hclose⟩)]
    rfl
  · exact fun _ h => absurd h hopen
  · exact fun _ h => absurd h hclose
  · exact fun _ h => absurd h hopen

theorem fills_doubled (c : Char) : Fills value (doubled c) [c] := by
  by_cases hopen : c = '\x7b'
  · subst hopen
    exact fun rest => rfl
  by_cases hclose : c = '\x7d'
  · subst hclose
    exact fun rest => rfl
  · rw [doubled, if_neg (not_or.mpr ⟨hopen, hclose⟩)]
    exact fills_plain hopen hclose

theorem fills_text {s : List Char} (hopen : '\x7b' ∉ s) (hclose : '\x7d' ∉ s) :
    Fills value s s := by
  have h : Fills value (s.flatMap (fun c => [c])) (s.flatMap (fun c => [c])) :=
    Fills.flatMap (fun c hc =>
      fills_plain (ne_of_mem_of_not_mem hc hopen)
        (ne_of_mem_of_not_mem hc hclose))
  rw [List.flatMap_singleton'] at h
  exact h

theorem fills_piece (p : Piece) :
    Fills value p.source (p.filled value) := by
  cases p with
  | lit l =>
      have h : Fills value (l.text.flatMap doubled)
          (l.text.flatMap (fun c => [c])) :=
        Fills.flatMap (fun c _ => fills_doubled c)
      rw [List.flatMap_singleton'] at h
      exact h
  | username => exact fun rest => rfl

theorem fills_pieces (pieces : List Piece) :
    Fills value (pieces.flatMap Piece.source)
      (pieces.flatMap (Piece.filled value)) :=
  Fills.flatMap (fun p _ => fills_piece p)

theorem fills_left (left : Left) : Fills value left.text left.text := by
  have hall := List.all_eq_true.mp left.isLeft
  refine fills_text ?_ ?_
  · exact fun h => absurd (hall _ h) (by decide)
  · exact fun h => absurd (hall _ h) (by decide)

theorem fills_rel (rel : Rel) : Fills value rel.text rel.text := by
  cases rel <;> exact fills_text (by decide) (by decide)

/-- The texts of templates are filled piece by piece. -/
theorem fills_item (i : Item (List Piece)) :
    Fills value (writeItem (fun pieces => pieces.flatMap Piece.source) i)
      (writeItem (fun pieces => pieces.flatMap (Piece.filled value)) i) := by
  rw [writeItem, writeItem, joinStars, joinStars, List.flatMap_map,
    List.flatMap_map]
  refine ((fills_left i.left).append (fills_rel i.rel)).append
    ((fills_pieces i.first).append (Fills.flatMap (fun pieces _ => ?_)))
  exact (fills_plain (by decide) (by decide)).append (fills_pieces pieces)

theorem fills_begin {c : Char} (hopen : c ≠ '\x7b') (hclose : c ≠ '\x7d') :
    Fills value ['(', c] ['(', c] :=
  (fills_plain (by decide) (by decide)).append (fills_plain hopen hclose)

mutual

theorem fills_write (t : Template) :
    Fills value (write (fun pieces => pieces.flatMap Piece.source) t)
      (write (fun pieces => pieces.flatMap (Piece.filled value)) t) := by
  match t with
  | .all fs =>
      rw [write, write]
      exact Fills.append (fills_begin (c := '&') (by decide) (by decide))
        (fills_writeAll fs)
  | .any fs =>
      rw [write, write]
      exact Fills.append (fills_begin (c := '|') (by decide) (by decide))
        (fills_writeAll fs)
  | .neg f =>
      rw [write, write]
      exact Fills.append (fills_begin (c := '!') (by decide) (by decide))
        ((fills_write f).append (fills_text (by decide) (by decide)))
  | .item i =>
      rw [write, write]
      exact Fills.append (fills_plain (by decide) (by decide))
        ((fills_item i).append (fills_text (by decide) (by decide)))

theorem fills_writeAll (fs : List Template) :
    Fills value (writeAll (fun pieces => pieces.flatMap Piece.source) fs)
      (writeAll (fun pieces => pieces.flatMap (Piece.filled value)) fs) := by
  match fs with
  | [] => exact fills_text (by decide) (by decide)
  | f :: fs =>
      rw [writeAll, writeAll]
      exact (fills_write f).append (fills_writeAll fs)

end

/-- Filled pieces stand for what the pieces do. -/
theorem unescape_filled {name : List UInt8}
    (hvalue : unescape value = some name) (pieces : List Piece) :
    unescape (pieces.flatMap (Piece.filled value))
      = some (pieces.flatMap (Piece.octets name)) := by
  induction pieces with
  | nil => rfl
  | cons p pieces ih =>
      have hpiece : unescape (p.filled value) = some (p.octets name) := by
        cases p with
        | lit l => exact l.reads
        | username => exact hvalue
      rw [List.flatMap_cons, List.flatMap_cons, unescape_append hpiece, ih]
      rfl

/-- The filter that is sent, and what it is read as. -/
theorem sent_filter {lib : AuthLib} (hlib : FilterLib lib) (t : Template)
    (username : String) :
    ∃ text, lib.format (configured t) (lib.escapeFilterChars username)
        = .ok text ∧ parse text.toList = some (named t username) := by
  refine ⟨String.ofList (write (fun pieces => pieces.flatMap
    (Piece.filled (lib.escapeFilterChars username).toList)) t), ?_, ?_⟩
  · refine hlib.format _ _ _ ?_
    have hfills := @fills_write (lib.escapeFilterChars username).toList t []
    rw [List.append_nil] at hfills
    rw [configured, String.toList_ofList, hfills]
    exact congrArg some (List.append_nil _)
  · rw [String.toList_ofList,
      parse_write (unescape_filled (hlib.escape username))]
    rfl

/-! ## Logins -/

/-- A directory that reads filters: `find` is what it has below a base. -/
def Searches (r : Replies)
    (find : String → CvFilter.Filter (Item (List UInt8)) → Option (List LdapEntry)) :
    Prop :=
  ∀ base text f, parse text.toList = some f → r.search base text = find base f

/-- The login of a user who is found under the typed name. -/
structure Admitted (env : AuthEnv) (r : Replies) (t : Template)
    (find : String → CvFilter.Filter (Item (List UInt8)) → Option (List LdapEntry))
    (username password : String) (entry : LdapEntry) : Prop where
  enabled : env.settings.enabled = true
  nonEmpty : password ≠ ""
  server : r.server = true
  serviceBind : r.serviceBind = true
  found : ∃ rest, find env.settings.userSearchBase (named t username)
    = some (entry :: rest)
  userBind : r.userBind entry.dn password = true

variable {env : AuthEnv} {r : Replies} {t : Template}
  {find : String → CvFilter.Filter (Item (List UInt8)) → Option (List LdapEntry)}
  {username password : String}

/-- Nobody is let in before the search. -/
theorem result_unsearched
    (h : ¬ ((env.settings.enabled = true ∧ password ≠ "") ∧
      r.server = true ∧ r.serviceBind = true)) (a : Ldap.LdapAuthResult) :
    result env r username password ≠ .ok (some a) := by
  intro hresult
  by_cases hasked : env.settings.enabled = true ∧ password ≠ ""
  · obtain ⟨henabled, hpassword⟩ := hasked
    by_cases hserver : r.server = true
    · have hbind : ¬ r.serviceBind = true :=
        fun hbind => h ⟨⟨henabled, hpassword⟩, hserver, hbind⟩
      rw [result_eq henabled hpassword hserver, if_neg hbind] at hresult
      cases hresult
    · rw [result_refused henabled hpassword (Bool.not_eq_true _ ▸ hserver)]
        at hresult
      cases hresult
  · rw [result_unasked hasked] at hresult
    cases hresult

/-- A login is what the search for the literal name gives. -/
theorem result_named (hlib : FilterLib env.lib)
    (hfilter : env.settings.userSearchFilter = configured t)
    (hsearch : Searches r find) (henabled : env.settings.enabled = true)
    (hpassword : password ≠ "") (hserver : r.server = true)
    (hbind : r.serviceBind = true) :
    result env r username password
      = ((orRaise (find env.settings.userSearchBase (named t username))).map
          List.head?).map (finish env r.userBind username password) := by
  obtain ⟨text, hformat, hparse⟩ := sent_filter hlib t username
  rw [result_eq henabled hpassword hserver, if_pos hbind, hfilter, hformat]
  show ((orRaise (r.search _ text)).map List.head?).map _ = _
  rw [hsearch _ text _ hparse]

/-- **A name is a name**: for every configured filter and everything that is
    typed as a username, a login succeeds exactly when the first entry that the
    configured filter finds with the literal name binds with the password, in
    the role of its groups. -/
theorem login_by_name (hlib : FilterLib env.lib)
    (hfilter : env.settings.userSearchFilter = configured t)
    (hsearch : Searches r find) (a : Ldap.LdapAuthResult) :
    result env r username password = .ok (some a) ↔
      a.username = username ∧ ∃ entry,
        Admitted env r t find username password entry ∧
          GroupRole env.settings entry.memberOf a.role := by
  by_cases hsearched : (env.settings.enabled = true ∧ password ≠ "") ∧
    r.server = true ∧ r.serviceBind = true
  swap
  · refine iff_of_false (result_unsearched hsearched a) ?_
    rintro ⟨-, entry, hentry, -⟩
    exact hsearched ⟨⟨hentry.enabled, hentry.nonEmpty⟩, hentry.server,
      hentry.serviceBind⟩
  obtain ⟨⟨henabled, hpassword⟩, hserver, hbind⟩ := hsearched
  rw [result_named hlib hfilter hsearch henabled hpassword hserver hbind]
  cases hfind : find env.settings.userSearchBase (named t username) with
  | none =>
      refine iff_of_false (fun h => nomatch h) ?_
      rintro ⟨-, entry, hentry, -⟩
      obtain ⟨rest, hrest⟩ := hentry.found
      rw [hfind] at hrest
      cases hrest
  | some entries =>
      show Except.ok (finish env r.userBind username password entries.head?)
        = _ ↔ _
      rw [Except.ok.injEq, finish_eq_some_iff]
      constructor
      · rintro ⟨entry, hhead, huser, hname, hrole⟩
        obtain ⟨rest, rfl⟩ := List.head?_eq_some_iff.mp hhead
        exact ⟨hname, entry, ⟨henabled, hpassword, hserver, hbind,
          ⟨rest, hfind⟩, huser⟩, hrole⟩
      · rintro ⟨hname, entry, hentry, hrole⟩
        obtain ⟨rest, hrest⟩ := hentry.found
        rw [hfind] at hrest
        rw [Option.some.inj hrest]
        exact ⟨entry, rfl, hentry.userBind, hname, hrole⟩

/-! ## The library as it is -/

/-- A character of an escaped name. -/
def escapeChar (c : Char) : List Char :=
  if c = '\\' then ['\\', '5', 'c']
  else if c = '*' then ['\\', '2', 'a']
  else if c = '(' then ['\\', '2', '8']
  else if c = ')' then ['\\', '2', '9']
  else if c = '\x00' then ['\\', '0', '0']
  else [c]

theorem unescape_escapeChar (c : Char) :
    unescape (escapeChar c) = some (String.utf8EncodeChar c) := by
  rw [escapeChar]
  split_ifs with hslash hstar hopen hclose hnul
  · rw [hslash]
    rfl
  · rw [hstar]
    rfl
  · rw [hopen]
    rfl
  · rw [hclose]
    rfl
  · rw [hnul]
    rfl
  · have hplain : special c = false := by
      rw [special, beq_false_of_ne hopen, beq_false_of_ne hclose,
        beq_false_of_ne hstar, beq_false_of_ne hslash, beq_false_of_ne hnul]
      rfl
    rw [unescape_plain hplain]
    exact congrArg some (List.append_nil _)

/-- An escaped name stands for the octets of the name. -/
theorem unescape_escaped (s : List Char) :
    unescape (s.flatMap escapeChar) = some (utf8 s) := by
  induction s with
  | nil => rfl
  | cons c s ih =>
      rw [List.flatMap_cons, unescape_append (unescape_escapeChar c), ih, utf8,
        utf8, List.flatMap_cons]
      rfl

/-- The two functions as they behave on names in ASCII, with hashes that show
    the password. -/
def escapingLib : AuthLib where
  format template value :=
    match formatUsername value.toList template.toList with
    | some text => .ok (String.ofList text)
    | none => .error (.valueError "Single brace encountered in format string")
  escapeFilterChars username :=
    String.ofList (username.toList.flatMap escapeChar)
  hashPassword := CvScope.plainLib.hashPassword
  verifyPassword := CvScope.plainLib.verifyPassword

theorem filterLib_escapingLib : FilterLib escapingLib where
  escape username := by
    rw [escapingLib, String.toList_ofList]
    exact unescape_escaped username.toList
  format template value text h := by
    show (match formatUsername value.toList template.toList with
      | some text => Except.ok (String.ofList text)
      | none => _) = _
    rw [h]

/-- The default of the setting. -/
def defaultFilter : Template :=
  .item ⟨⟨"sAMAccountName".toList, by decide, by decide⟩, .equal,
    [.username], []⟩

/-- A directory with Ada in it. -/
def adasFind (_ : String) (f : CvFilter.Filter (Item (List UInt8))) :
    Option (List LdapEntry) :=
  match f with
  | .item ⟨_, .equal, name, []⟩ =>
      if name = utf8 "ada".toList then
        some [⟨"CN=Ada,DC=corp", ["CN=Admins,DC=corp"]⟩]
      else some []
  | _ => some []

/-- Its answers. -/
def filterReplies : Replies where
  serviceBind := true
  search base text := (parse text.toList).bind (adasFind base)
  userBind _ password := decide (password = "pw")

/-- The deployment with that directory. -/
def escapingEnv : AuthEnv :=
  { CvAccount.oneEntry with lib := escapingLib }

theorem searches_adasFind : Searches filterReplies adasFind := by
  intro base text f hparse
  show (parse text.toList).bind (adasFind base) = adasFind base f
  rw [hparse]
  rfl

/-- Ada logs in under her name; a pattern that her name matches finds nobody. -/
theorem login_by_pattern :
    result escapingEnv filterReplies "ada" "pw"
        = .ok (some ⟨"ada", .admin⟩) ∧
      result escapingEnv filterReplies "a*)(cn=*" "pw"
        ≠ .ok (some ⟨"a*)(cn=*", .admin⟩) := by
  have hlogin := fun username a => @login_by_name escapingEnv filterReplies
    defaultFilter adasFind username "pw" filterLib_escapingLib rfl
    searches_adasFind a
  constructor
  · refine (hlogin "ada" ⟨"ada", .admin⟩).mpr
      ⟨rfl, ⟨"CN=Ada,DC=corp", ["CN=Admins,DC=corp"]⟩, ?_, ?_⟩
    · exact ⟨rfl, by decide, rfl, rfl, ⟨[], rfl⟩, rfl⟩
    · exact ⟨by decide, List.mem_singleton_self _⟩
  · intro h
    obtain ⟨-, entry, hentry, -⟩ := (hlogin _ _).mp h
    obtain ⟨rest, hrest⟩ := hentry.found
    cases hrest

end CvLdap
