import Saml.Text

/-!
# Namespace URIs

The namespaces of the SAML documents, their signatures and their encryption.
-/

namespace Saml

/-- The XML namespace URI, bound to the `xml` prefix at all times. -/
def XML_NS : Str := "http://www.w3.org/XML/1998/namespace"

/-- SAML protocol namespace URI. -/
def SAMLP_NS : Str := "urn:oasis:names:tc:SAML:2.0:protocol"

/-- SAML assertion namespace URI. -/
def SAML_NS : Str := "urn:oasis:names:tc:SAML:2.0:assertion"

/-- SAML metadata namespace URI. -/
def MD_NS : Str := "urn:oasis:names:tc:SAML:2.0:metadata"

/-- XML-DSig namespace URI. -/
def DS_NS : Str := "http://www.w3.org/2000/09/xmldsig#"

/-- Exclusive canonicalization namespace URI. -/
def EC_NS : Str := "http://www.w3.org/2001/10/xml-exc-c14n#"

/-- XML Encryption namespace URI. -/
def XENC_NS : Str := "http://www.w3.org/2001/04/xmlenc#"

/-- XML Encryption 1.1 namespace URI. -/
def XENC11_NS : Str := "http://www.w3.org/2009/xmlenc11#"

end Saml
