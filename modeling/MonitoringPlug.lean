import MonitoringPlug.Lib.Block
import MonitoringPlug.Lib.Lines
import MonitoringPlug.Lib.Loop
import MonitoringPlug.Lib.Text
import MonitoringPlug.Lib.Octets
import MonitoringPlug.Lib.Cursor
import MonitoringPlug.Lib.Format
import MonitoringPlug.Lib.Rounding
import MonitoringPlug.Lib.Numeral
import MonitoringPlug.Common
import MonitoringPlug.Common.Buffer
import MonitoringPlug.Utils
import MonitoringPlug.Check.Integer
import MonitoringPlug.Lib.Encoded
import MonitoringPlug.Check.Url
import MonitoringPlug.Check.UrlSyntax
import MonitoringPlug.Check.Access
import MonitoringPlug.Check.Sockets
import MonitoringPlug.Template.Actions
import MonitoringPlug.Template.Tree
import MonitoringPlug.Args.Range
import MonitoringPlug.Args.RangeSyntax
import MonitoringPlug.Args.Malformed
import MonitoringPlug.Sms.Encode
import MonitoringPlug.Sms.Pdu
import MonitoringPlug.Sms.Septets
import MonitoringPlug.Sms.Alphabet
import MonitoringPlug.Sms.Buffer
import MonitoringPlug.Sms.Notify
import MonitoringPlug.Sms.Session
import MonitoringPlug.Notify.Sms
import MonitoringPlug.Common.Subprocess
import MonitoringPlug.Notify.Mail
import MonitoringPlug.Base.Multipath
import MonitoringPlug.Base.GsmSignal
import MonitoringPlug.Sms.AtCommand
import MonitoringPlug.Dhcp.Options
import MonitoringPlug.Dhcp.Receive
import MonitoringPlug.Snmp.Agent
import MonitoringPlug.Snmp.Subtree
import MonitoringPlug.Snmp.Conforming
import MonitoringPlug.Snmp.Query
import MonitoringPlug.Snmp.Fetch
import MonitoringPlug.Snmp.Values
import MonitoringPlug.Snmp.Row
import MonitoringPlug.Common.Severity
import MonitoringPlug.Snmp.QnapVols
import MonitoringPlug.Snmp.KeepalivedVrrp
import MonitoringPlug.Snmp.Ups
import MonitoringPlug.Snmp.Akcp
import MonitoringPlug.Perfdata.Item
import MonitoringPlug.Perfdata.Grammar
import MonitoringPlug.Perfdata.Report
import MonitoringPlug.Perfdata.Percent
import MonitoringPlug.Perfdata.Threshold
import MonitoringPlug.Redis.Check
import MonitoringPlug.Args.Eopt
import MonitoringPlug.Args.EoptFaults
import MonitoringPlug.Lib.Splice
import MonitoringPlug.Args.Getopt
import MonitoringPlug.Args.Nesting
import MonitoringPlug.Args.Processing
import MonitoringPlug.Net.RecvLine
import MonitoringPlug.Net.RecvEnd
import MonitoringPlug.Fcgi.Record
import MonitoringPlug.Fcgi.Response
import MonitoringPlug.Dhcp.Check
import MonitoringPlug.Dhcp.Dump
import MonitoringPlug.Dhcp.Uses
import MonitoringPlug.Lib.Checksum
import MonitoringPlug.Dhcp.Send
import MonitoringPlug.Lib.Slots
import MonitoringPlug.Rhcs.Document
import MonitoringPlug.Rhcs.Clustat
import MonitoringPlug.Rhcs.Conf
import MonitoringPlug.Rhcs.Counters
import MonitoringPlug.Rhcs.Calls
import MonitoringPlug.Lib.Scanner
import MonitoringPlug.Lib.ShiftReduce
import MonitoringPlug.Template.Lexer
import MonitoringPlug.Template.Grammar
import MonitoringPlug.Template.Parse
import MonitoringPlug.Template.Session
import MonitoringPlug.Template.Segments
import MonitoringPlug.Template.Delimiters
import MonitoringPlug.Lib.Reductions
import MonitoringPlug.Template.Syntax
import MonitoringPlug.Template.Evaluation
import MonitoringPlug.Template.Number
import MonitoringPlug.Template.Conflicts
import MonitoringPlug.Template.Comparison
import MonitoringPlug.Dns.Expiration
import MonitoringPlug.Lib.Trust
import MonitoringPlug.Dns.Trace
import MonitoringPlug.Lib.Chain
import MonitoringPlug.Ipmi.Sensors
import MonitoringPlug.Curl.Header
import MonitoringPlug.Lib.Search
import MonitoringPlug.Curl.Webdav
import MonitoringPlug.Curl.Apache
import MonitoringPlug.Ldap.Replication
import MonitoringPlug.Rhcs.Status
import MonitoringPlug.Lib.Incremental
import MonitoringPlug.Rhcs.Feeding
import MonitoringPlug.Lib.Rounds
import MonitoringPlug.Lib.Reads
import MonitoringPlug.Check.Bonding
import MonitoringPlug.Dns.Anchorfile
import MonitoringPlug.Dns.AnchorReading
import MonitoringPlug.Dns.AnchorLines
import MonitoringPlug.Dns.AnchorStatements
import MonitoringPlug.Dns.Legible
import MonitoringPlug.Args.Suffixes
import MonitoringPlug.Net.Csum
import MonitoringPlug.Fcgi.Params
import MonitoringPlug.Curl.Body
import MonitoringPlug.Cups.Jobs
import MonitoringPlug.Oping.Ping
import MonitoringPlug.Rpc.Exports
import MonitoringPlug.Notify.Aspsms
import MonitoringPlug.Lib.Dialogue
import MonitoringPlug.Lib.Interview
import MonitoringPlug.Lib.Pipe
import MonitoringPlug.Lib.Tokens
import MonitoringPlug.Redis.Info
import MonitoringPlug.Redis.Slave
import MonitoringPlug.Net.Dialogue
import MonitoringPlug.Gnutls.Starttls
import MonitoringPlug.Base.Memcached
import MonitoringPlug.Rpc.Release
import MonitoringPlug.Rpc.Nfs
import MonitoringPlug.Libvirt.Domain
