import ClusterVision.HttpRoutes

/-! # The directory

    `services/ldap_service.py`, call by call: the server object, the two
    connections and the search of ldap3, with the three `try` statements around
    them.  The rest of the backend knows how the function ends against the
    directory that it has. -/

namespace CvAuth

open CvProg CvKube CvBackend

/-! ## Settings and libraries -/

/-- The LDAP settings. -/
structure LdapSettings where
  enabled : Bool
  userSearchBase : String
  userSearchFilter : String
  adminGroupDn : String
  viewerGroupDn : String

/-- A search result.  `memberOf` is empty when the entry has no such
    attribute. -/
structure LdapEntry where
  dn : String
  memberOf : List String
deriving DecidableEq

/-- The directory server: does ldap3 take its settings, can the service account
    bind, what does a search below a base find, and can a name bind with a
    password. -/
structure Directory where
  server : Bool := true
  serviceBind : Bool
  search : String → String → Except Exn (List LdapEntry)
  bind : String → String → Bool

/-- What the services take from libraries: `str.format` with `username=`,
    `escape_filter_chars`, and the two functions of `core/auth.py` on
    passwords, which are bcrypt's. -/
structure AuthLib where
  format : String → String → Except Exn String
  escapeFilterChars : String → String
  hashPassword : String → Except Exn String
  verifyPassword : String → String → Except Exn Bool

/-- What a login depends on besides the database. -/
structure AuthEnv where
  lib : AuthLib
  settings : LdapSettings
  directory : Directory

namespace Ldap

/-- `LdapAuthResult`. -/
structure LdapAuthResult where
  username : String
  role : Role

variable (env : AuthEnv)

/-- The role of an entry by its groups. -/
def roleOf (groups : List String) : Option Role :=
  if env.settings.adminGroupDn ≠ "" ∧ env.settings.adminGroupDn ∈ groups then
    some .admin
  else if env.settings.viewerGroupDn = "" ∨
      env.settings.viewerGroupDn ∈ groups then some .viewer
  else none

end Ldap

end CvAuth

namespace CvLdap

open CvProg CvKube CvBackend CvAuth

/-! ## Calls -/

/-- The calls of ldap3: `Server(..)`, the `Connection` of the service account,
    `search` below a base, the `Connection` of a user, and `unbind`. -/
inductive LdapOp where
  | server
  | serviceBind
  | search (base searchFilter : String)
  | userBind (dn password : String)
  | unbind
deriving DecidableEq

/-- What a call returns. -/
@[reducible] def LdapOp.Res : LdapOp → Type
  | .search _ _ => List LdapEntry
  | _ => Unit

/-- The library. -/
abbrev ldap3 : Iface where
  Op := LdapOp
  Res := LdapOp.Res

/-- A part of the service. -/
abbrev Dir (α : Type) := Prog ldap3 Exn α

/-- Issue a call. -/
def ldap (op : LdapOp) : Dir op.Res := Prog.perform (I := ldap3) op

/-- `try: ..; except LDAPException: return None`. -/
def orReturn {α : Type} (p : Dir α) : Dir (Option α) :=
  tryCatch (some <$> p)
    (fun e => if e = Exn.ldapException then pure none else throw e)

/-! ## authenticate -/

variable (env : AuthEnv)

/-- The second `try`: `finally` releases the connection, and nothing is
    caught. -/
def firstEntry (username : String) : Dir (Option LdapEntry) :=
  Prog.ensuring
    (do
      let searchFilter ← Prog.ofExcept (env.lib.format
        env.settings.userSearchFilter (env.lib.escapeFilterChars username))
      let entries : List LdapEntry ←
        ldap (.search env.settings.userSearchBase searchFilter)
      return entries.head?)
    (ldap .unbind)

/-- The third `try`. -/
def verifyPassword (dn password : String) : Dir (Option Unit) :=
  orReturn (do
    ldap (.userBind dn password)
    ldap .unbind)

/-- `authenticate`. -/
def authenticate (username password : String) :
    Dir (Option Ldap.LdapAuthResult) :=
  if env.settings.enabled = false then pure none
  else if password = "" then pure none
  else do
    ldap .server
    match ← orReturn (ldap .serviceBind) with
    | none => return none
    | some _ =>
        match ← firstEntry env username with
        | none => return none
        | some entry =>
            match ← verifyPassword entry.dn password with
            | none => return none
            | some _ =>
                return (Ldap.roleOf env entry.memberOf).map
                  (fun role => ⟨username, role⟩)

/-! ## Directories -/

/-- An operation that succeeds, or raises `LDAPException`. -/
def orRaise {α : Type} : Option α → Except Exn α
  | some a => .ok a
  | none => .error .ldapException

end CvLdap

namespace CvAuth

open CvProg CvKube CvBackend CvLdap

/-- How a directory answers the calls. -/
def Directory.answer (d : Directory) : Handler ldap3 Exn Unit
  | .server, s => (orRaise (guard (d.server = true)), s)
  | .serviceBind, s => (orRaise (guard (d.serviceBind = true)), s)
  | .search base searchFilter, s => (d.search base searchFilter, s)
  | .userBind dn password, s => (orRaise (guard (d.bind dn password = true)), s)
  | .unbind, s => (.ok (), s)

/-- How `ldap_service.authenticate` ends against the directory. -/
def Ldap.authenticate (env : AuthEnv) (username password : String) :
    Except Exn (Option LdapAuthResult) :=
  ((CvLdap.authenticate env username password).run env.directory.answer ()).1

end CvAuth
