/-!
# Why a render fails

Each error is its cause; `RenderError.message` holds all wording. A protocol violation is an operation of the writer or
of a receiver of its events, with the reason it is out of order.
-/

namespace FlowDoc

/-- The operations that can come out of order. -/
inductive Operation
  | writeNamespace
  | getMember
  | startItems
  | endItems
  | writeText
  | writeChar
  | writeValue
  | contentProperty
  | declareNamespace
  | startObject
  | endObject
  | startMember
  | endMember
  | startCollection
  | endCollection
  | value
  | finish
  deriving DecidableEq

def Operation.name : Operation → String
  | writeNamespace => "write_namespace"
  | getMember => "get_member"
  | startItems => "start_items"
  | endItems => "end_items"
  | writeText => "write_text"
  | writeChar => "write_char"
  | writeValue => "write_value"
  | contentProperty => "content_property"
  | declareNamespace => "namespace"
  | startObject => "start_object"
  | endObject => "end_object"
  | startMember => "start_member"
  | endMember => "end_member"
  | startCollection => "start_collection"
  | endCollection => "end_collection"
  | value => "value"
  | finish => "finish"

/-- What an operation met that it may not meet. -/
inductive Violation
  | rootAlreadyStarted
  | secondRoot
  | noOpenMember
  | memberNotOpenOnObject
  | scopeStillOpen
  | noOpenObject
  | scopeAlreadyOpen
  | memberDuringText
  | previousPending
  | itemsDuringText
  | noOpenCollection
  | textOutsideMember
  | openScopesAtFinish
  | endWithoutStart
  | unclosed
  | namespaceAfterRoot
  | objectInObject
  | memberStillOpen
  | objectClosedInObject
  | memberOutsideObject
  | objectStillOpen
  | memberClosedOutsideObject
  | valueOutsideMember
  | noRoot
  deriving DecidableEq

def Violation.text : Violation → String
  | rootAlreadyStarted => "namespaces must precede the root object"
  | secondRoot => "second root object"
  | noOpenMember => "no open member"
  | memberNotOpenOnObject => "no member open on the current object"
  | scopeStillOpen => "a member or collection is still open"
  | noOpenObject => "no open object"
  | scopeAlreadyOpen => "a member or collection is already open"
  | memberDuringText => "start member during text collection"
  | previousPending => "previous collection is still pending"
  | itemsDuringText => "start items during text collection"
  | noOpenCollection => "no open collection"
  | textOutsideMember => "text outside a member"
  | openScopesAtFinish => "objects, members or collections still open"
  | endWithoutStart => "end without matching start"
  | unclosed => "unclosed objects or members"
  | namespaceAfterRoot => "namespace declared after the root object started"
  | objectInObject => "object started directly inside an object"
  | memberStillOpen => "a member is still open"
  | objectClosedInObject => "object closed directly inside an object"
  | memberOutsideObject => "member started outside an object"
  | objectStillOpen => "an object is still open"
  | memberClosedOutsideObject => "member closed outside an object"
  | valueOutsideMember => "value written outside a member"
  | noRoot => "no root object"

/-- Why a markup fragment cannot be replayed. -/
inductive FragmentFault
  /-- It is not well-formed; the text stands in for a report of where. -/
  | malformed
  | propertyElement (name : String)
  | namespacedAttribute (name : String)
  deriving DecidableEq

def FragmentFault.text : FragmentFault → String
  | malformed => "<parser>"
  | propertyElement name => "property element <" ++ name ++ "> is not supported"
  | namespacedAttribute name => "namespaced attribute '" ++ name ++ "' is not supported"

/-- Why a text is no address. -/
inductive UriFault
  | emptyHost
  | invalidPort
  | invalidIpv4
  | invalidIpv6
  | invalidDomainCharacter
  | internationalDomain
  | relativeWithoutBase
  | relativeWithOpaqueBase
  deriving DecidableEq

def UriFault.text : UriFault → String
  | emptyHost => "empty host"
  | invalidPort => "invalid port number"
  | invalidIpv4 => "invalid IPv4 address"
  | invalidIpv6 => "invalid IPv6 address"
  | invalidDomainCharacter => "invalid domain character"
  | internationalDomain => "invalid international domain name"
  | relativeWithoutBase => "relative URL without a base"
  | relativeWithOpaqueBase => "relative URL with a cannot-be-a-base base"

/-- Why an address cannot be the base of others. -/
inductive BaseFault
  | notAbsolute (fault : UriFault)
  | opaquePath
  deriving DecidableEq

def BaseFault.text : BaseFault → String
  | notAbsolute fault => fault.text
  | opaquePath => "cannot be used as a base"

/-- An error of writing or rendering a document. -/
inductive RenderError
  | protocol (operation : Operation) (violation : Violation)
  | unknownType (name : String)
  | unknownMember (typeName member : String)
  | noContentProperty (typeName : String)
  | unknownStyleRole (name : String)
  /-- A value a member does not take; the value in its diagnostic form. -/
  | conversion (member value : String)
  | unsupportedFragment (fragment : String) (fault : FragmentFault)
  | handlerMismatch (kind : String)
  | invalidBaseUri (uri : String) (fault : BaseFault)
  deriving DecidableEq

/-- The wording of an error. -/
def RenderError.message : RenderError → String
  | protocol operation violation => "protocol violation in " ++ operation.name ++ ": " ++ violation.text
  | unknownType name => "could not resolve xaml type '" ++ name ++ "'"
  | unknownMember typeName member => "type '" ++ typeName ++ "' has no member '" ++ member ++ "'"
  | noContentProperty typeName => "type '" ++ typeName ++ "' has no content property"
  | unknownStyleRole name => "unknown style role '" ++ name ++ "'"
  | conversion member value => "cannot convert " ++ value ++ " for member '" ++ member ++ "'"
  | unsupportedFragment fragment fault => "unsupported markup fragment '" ++ fragment ++ "': " ++ fault.text
  | handlerMismatch kind => "handler registered for '" ++ kind ++ "' received a different node"
  | invalidBaseUri uri fault => "invalid base uri '" ++ uri ++ "': " ++ fault.text

end FlowDoc
